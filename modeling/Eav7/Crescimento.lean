import Eav7.Codificacao
import Eav7.Corrida

/-!
# Chains that grow by empty blocks

A state that holds only accounts, the ring of block hashes and the emission takes
an empty block at every height, and keeps its validators. A producer whose turn it
is can then always extend the chain, and every other node accepts the block.
-/

namespace Eav7

open Base

/-! ## Quiet states -/

/-- A state of accounts, block hashes and emission. -/
def quieto (accounts : OrdMap String Account) (contracts : OrdMap String Contract)
    (minted : Amount) : State :=
  { accounts := accounts, contracts := contracts, totalMinted := minted }

/-- An account that only staked and was rewarded. -/
def contaQuieta (saldo stake : Amount) : Account := { balance := saldo, staked := stake }

def maxStake : Amount := 10 ^ 12

/-- Contracts that only hold a ring of at most `n` hashes. -/
def AnelCurto (n : ℕ) (contracts : OrdMap String Contract) : Prop :=
  ∀ a ctr, contracts.get? a = some ctr →
    ctr.code = "" ∧ ctr.balance = 0 ∧ ctr.nonce = 0 ∧ ctr.storage.size ≤ n ∧
      ∀ k v, ctr.storage.get? k = some v → k.toList.length ≤ 66 ∧ v.toList.length ≤ 66

/-- A quiet state after `n` blocks at most. -/
structure Parado (n : ℕ) (s : State) : Prop where
  forma : s = quieto s.accounts s.contracts s.totalMinted
  contas : ∀ a acc, s.accounts.get? a = some acc → ∃ saldo stake, acc = contaQuieta saldo stake ∧
    saldo ≤ n * Config.blockReward ∧ stake ≤ maxStake
  emitido : s.totalMinted ≤ n * Config.blockReward
  anel : AnelCurto n s.contracts

theorem ringSlot_length (n : ℕ) : (ringSlot n).toList.length ≤ 66 := by
  have hlt : n % Config.blockhashHistory < 16 ^ 4 :=
    lt_trans (Nat.mod_lt n (by decide)) (by decide)
  have h := (Nat.length_toDigits_le_iff (by decide : 1 < 16) (by decide : 0 < 4)).mpr hlt
  unfold ringSlot naturalHex
  rw [String.toList_ofList, List.length_cons, List.length_cons]
  omega

theorem semPrefixo0x_length (s : String) : (semPrefixo0x s).length ≤ s.toList.length := by
  unfold semPrefixo0x
  split
  · rename_i cs h
    rw [h, List.length_cons, List.length_cons]
    omega
  · exact le_rfl

theorem size_insert_le {κ ν : Type} [LinearOrder κ] (m : OrdMap κ ν) (k : κ) (v : ν) :
    (m.insert k v).size ≤ m.size + 1 := by
  have hgeral : ∀ es : List (κ × ν), (OrdMap.insertEntry k v es).length ≤ es.length + 1 := by
    intro es
    induction es with
    | nil => exact le_rfl
    | cons e es ih =>
      unfold OrdMap.insertEntry
      split_ifs
      · exact le_rfl
      · exact Nat.le_succ _
      · exact Nat.succ_le_succ ih
  exact hgeral m.entries

theorem quieto_blockReward (a : OrdMap String Account) (k : OrdMap String Contract) (m : Amount)
    (h : ℕ) : ∃ r, (quieto a k m).blockReward h = .ok r ∧ r ≤ Config.blockReward := by
  refine ⟨_, rfl, ?_⟩
  split_ifs
  · exact Nat.zero_le _
  · exact Nat.div_le_self _ _

/-- The accounts after a reward. -/
def premiadas (a : OrdMap String Account) (e : String) (r : Amount) : OrdMap String Account :=
  a.insert e { a.getD e {} with balance := (a.getD e {}).balance + r }

theorem creditar_quieto {a : OrdMap String Account} {k : OrdMap String Contract} {m r : Amount}
    {e : String} (h : (a.getD e {}).balance + r < u128Limit) :
    creditar e r (quieto a k m) = 
      .ok () (quieto (premiadas a e r) k m) := by
  have hsoma : soma ((quieto a k m).balanceOf e) r = .ok ((a.getD e {}).balance + r) :=
    soma_eq_ok.mpr ⟨rfl, h⟩
  unfold creditar
  rw [get_bind_run, set_bind_run]
  refine bind_eq_ok.mpr ⟨_, _, lift_eq_ok.mpr ⟨hsoma, rfl⟩, rfl⟩

theorem distribute_quieto {a : OrdMap String Account} {k : OrdMap String Contract} {m r : Amount}
    {e : String} (h : (a.getD e {}).balance + r < u128Limit) :
    distributeBlockReward e r (quieto a k m) = .ok () (quieto (premiadas a e r) k m) := by
  unfold distributeBlockReward
  have hcorte : cortarTesouraria r (quieto a k m) = .ok r (quieto a k m) := by
    have hp : produto r 0 "estouro no corte da tesouraria" = .ok 0 :=
      produto_eq_ok.mpr ⟨rfl, by rw [Nat.mul_zero]; decide⟩
    unfold cortarTesouraria
    rw [get_bind_run]
    refine bind_eq_ok.mpr ⟨0, _, rfl, bind_eq_ok.mpr ⟨0, _, lift_eq_ok.mpr ⟨hp, rfl⟩, rfl⟩⟩
  refine bind_eq_ok.mpr ⟨r, _, hcorte, ?_⟩
  rw [get_bind_run]
  have hz : (quieto a k m).candidateVotes.getD e 0 = 0 := rfl
  rw [hz, if_pos (Or.inl rfl)]
  exact creditar_quieto h

theorem blockTick_quieto (a : OrdMap String Account) (k : OrdMap String Contract) (m : Amount)
    (h : ℕ) : blockTick h (quieto a k m) = .ok () (quieto a k m) := rfl

theorem fechaBloco_quieto {a : OrdMap String Account} {k : OrdMap String Contract} {m : Amount}
    {b : Block} (hs : (a.getD b.validator {}).balance + Config.blockReward < u128Limit)
    (hm : m + Config.blockReward < u128Limit) :
    ∃ r ≤ Config.blockReward, fechaBloco b (quieto a k m) =
      .ok () (quieto (premiadas a b.validator r) k (m + r)) := by
  obtain ⟨r, hr, hle⟩ := quieto_blockReward a k m b.height
  refine ⟨r, hle, ?_⟩
  unfold fechaBloco
  rw [get_bind_run]
  refine bind_eq_ok.mpr ⟨r, _, lift_eq_ok.mpr ⟨hr, rfl⟩, ?_⟩
  have hsaldo := Nat.lt_of_le_of_lt (Nat.add_le_add_left hle _) hs
  refine bind_eq_ok.mpr ⟨(), _, distribute_quieto hsaldo, ?_⟩
  rw [get_bind_run]
  have hcabe : recusar (u128Limit ≤ m + r) "estouro no total emitido" = .ok () :=
    recusar_eq_ok.mpr (not_le.mpr (Nat.lt_of_le_of_lt (Nat.add_le_add_left hle _) hm))
  refine bind_eq_ok.mpr ⟨(), _, lift_eq_ok.mpr ⟨hcabe, rfl⟩, ?_⟩
  rw [modify_bind_run]
  exact blockTick_quieto _ k (m + r) b.height

/-! ## One empty block -/

/-- The validators of a quiet state are its staked accounts; a reward moves no stake. -/
theorem filterMap_insertEntry {κ ν β : Type} [LinearOrder κ] (f : κ × ν → Option β) (k : κ) (v : ν)
    {es : List (κ × ν)} (hs : es.Pairwise fun a b => a.1 < b.1)
    (h : f (k, v) = (OrdMap.find k es).bind fun w => f (k, w)) :
    (OrdMap.insertEntry k v es).filterMap f = es.filterMap f := by
  induction es with
  | nil => exact List.filterMap_cons_none h
  | cons e es ih =>
    obtain ⟨he, hes⟩ := List.pairwise_cons.mp hs
    unfold OrdMap.insertEntry
    split_ifs with hlt heq
    · have hnone : OrdMap.find k (e :: es) = none := OrdMap.find_eq_none_of_lt fun d hd => by
        rcases List.mem_cons.mp hd with rfl | hd
        · exact hlt
        · exact hlt.trans (he d hd)
      rw [hnone] at h
      exact List.filterMap_cons_none h
    · rw [OrdMap.find, if_pos heq, heq] at h
      rw [heq, List.filterMap_cons, List.filterMap_cons, h]
      rfl
    · rw [OrdMap.find, if_neg heq] at h
      rw [List.filterMap_cons, List.filterMap_cons, ih hes h]

theorem validators_quieto {a : OrdMap String Account} {k k' : OrdMap String Contract}
    {m m' r : Amount} (e : String) :
    (quieto (premiadas a e r) k' m').validators = (quieto a k m).validators := by
  have hcand : ∀ minStake : Amount, 0 < minStake →
      (quieto (premiadas a e r) k' m').candidatos minStake =
        (quieto a k m).candidatos minStake := by
    intro minStake hpos
    refine filterMap_insertEntry _ e _ a.sorted ?_
    unfold OrdMap.getD OrdMap.get?
    cases OrdMap.find e a.entries with
    | none =>
      have hzero : ¬ minStake ≤ (({} : Account).staked) := not_le.mpr hpos
      exact if_neg fun hc => hzero hc.1
    | some acc => rfl
  have h := hcand Config.minValidatorStake (by decide)
  unfold State.validators
  change Except.ok _ = Except.ok _
  rw [h]

namespace Parado

variable {n : ℕ} {s : State}

theorem conta_getD (h : Parado n s) (a : String) : ∃ saldo stake,
    s.accounts.getD a {} = contaQuieta saldo stake ∧ saldo ≤ n * Config.blockReward ∧
      stake ≤ maxStake := by
  unfold OrdMap.getD
  cases hg : s.accounts.get? a with
  | none => exact ⟨0, 0, rfl, Nat.zero_le _, Nat.zero_le _⟩
  | some acc => exact h.contas a acc hg

theorem anel_mono {k : OrdMap String Contract} (h : AnelCurto n k) : AnelCurto (n + 1) k := by
  intro a ctr hg
  obtain ⟨h1, h2, h3, h4, h5⟩ := h a ctr hg
  exact ⟨h1, h2, h3, h4.trans (Nat.le_succ n), h5⟩

/-- The ring entry of a block. -/
theorem gira (h : Parado n s) (numero : ℕ) {hash : String} (hh : hash.toList.length ≤ 64) :
    AnelCurto (n + 1) (s.recordBlockHash numero hash).contracts := by
  intro a ctr hg
  have hantes : AnelCurto n (s.contracts.insert blockhashHistoryAddr
      (s.contracts.getD blockhashHistoryAddr contratoVazio)) := by
    intro b c hc
    rw [OrdMap.get?_insert] at hc
    split_ifs at hc
    · cases hc
      unfold OrdMap.getD
      cases hc : s.contracts.get? blockhashHistoryAddr with
      | none =>
        refine ⟨rfl, rfl, rfl, Nat.zero_le _, ?_⟩
        intro k v hv
        cases hv
      | some c => exact h.anel _ c hc
    · exact h.anel b c hc
  unfold State.recordBlockHash at hg
  dsimp only at hg
  rw [OrdMap.get?_insert] at hg
  split_ifs at hg with ha
  · obtain ⟨h1, h2, h3, h4, h5⟩ := hantes _ _ (OrdMap.get?_insert_self _ _ _)
    cases hg
    refine ⟨h1, h2, h3, (size_insert_le _ _ _).trans (Nat.succ_le_succ h4), ?_⟩
    intro k v hv
    dsimp only at hv
    rw [OrdMap.get?_insert] at hv
    split_ifs at hv with hk
    · cases hv
      subst hk
      refine ⟨ringSlot_length numero, ?_⟩
      have hcorpo := semPrefixo0x_length hash
      have hmin : (String.ofList ((semPrefixo0x hash).map asciiMinuscula)).toList.length =
          (semPrefixo0x hash).length := by
        rw [String.toList_ofList, List.length_map]
      rw [String.toList_append, List.length_append, hmin]
      change 2 + _ ≤ 66
      omega
    · exact h5 k v hv
  · exact anel_mono h.anel a ctr hg

/-- The bounds of a quiet state leave room for a reward. -/
theorem cabe (hn : n ≤ 10 ^ 6) {x : Amount} (hx : x ≤ n * Config.blockReward) :
    x + Config.blockReward < u128Limit := by
  have hmul : n * Config.blockReward ≤ 10 ^ 6 * Config.blockReward := Nat.mul_le_mul_right _ hn
  have hlim : 10 ^ 6 * Config.blockReward + Config.blockReward < u128Limit := by decide
  exact lt_of_le_of_lt (Nat.add_le_add_right (hx.trans hmul) _) hlim

theorem simulate (h : Parado n s) (hn : n ≤ 10 ^ 6) (c : Blockchain) (amb : Ambiente) {b : Block}
    (htx : b.transactions = []) (hts : 0 ≤ b.timestamp)
    (hprev : b.previousHash.toList.length ≤ 64) :
    ∃ s', c.simulate amb b s = .ok [] s' ∧ Parado (n + 1) s' ∧ s'.validators = s.validators := by
  have habre : ∃ k, abreBloco b s = .ok b.timestamp.toNat (quieto s.accounts k s.totalMinted) ∧
      AnelCurto (n + 1) k := by
    unfold abreBloco
    by_cases hz : 0 < b.height
    · refine ⟨_, ?_, h.gira (b.height - 1) hprev⟩
      rw [if_pos hz, if_neg (not_lt.mpr hts)]
      have hforma : s.recordBlockHash (b.height - 1) b.previousHash =
          quieto s.accounts (s.recordBlockHash (b.height - 1) b.previousHash).contracts
            s.totalMinted := by
        conv_lhs => rw [h.forma]
        rfl
      exact congrArg (EStateM.Result.ok b.timestamp.toNat) hforma
    · refine ⟨s.contracts, ?_, anel_mono h.anel⟩
      rw [if_neg hz, if_neg (not_lt.mpr hts)]
      exact congrArg (EStateM.Result.ok b.timestamp.toNat) h.forma
  obtain ⟨k, habre, hanel⟩ := habre
  obtain ⟨saldo, stake, hconta, hsaldo, hstake⟩ := h.conta_getD b.validator
  have hbal : (s.accounts.getD b.validator {}).balance = saldo := by rw [hconta]; rfl
  obtain ⟨r, hr, hfecha⟩ := fechaBloco_quieto (k := k) (b := b)
    (by rw [hbal]; exact cabe hn hsaldo) (cabe hn h.emitido)
  have hmais : n * Config.blockReward + r ≤ (n + 1) * Config.blockReward := by
    rw [Nat.succ_mul]
    exact Nat.add_le_add_left hr _
  refine ⟨quieto (premiadas s.accounts b.validator r) k (s.totalMinted + r), ?_,
    ⟨rfl, ?_, ?_, hanel⟩, ?_⟩
  · unfold Blockchain.simulate
    refine bind_eq_ok.mpr ⟨_, _, habre, ?_⟩
    rw [htx]
    exact bind_eq_ok.mpr ⟨[], _, rfl, bind_eq_ok.mpr ⟨(), _, hfecha, rfl⟩⟩
  · intro a acc hg
    change OrdMap.get? (OrdMap.insert _ _ _) a = some acc at hg
    rw [OrdMap.get?_insert] at hg
    split_ifs at hg
    · cases hg
      refine ⟨saldo + r, stake, ?_, (Nat.add_le_add_right hsaldo r).trans hmais, hstake⟩
      rw [hconta]
      rfl
    · obtain ⟨saldo', stake', hacc, hs', hst'⟩ := h.contas a acc hg
      exact ⟨saldo', stake', hacc, hs'.trans ((Nat.le_add_right _ r).trans hmais), hst'⟩
  · exact (Nat.add_le_add_right h.emitido r).trans hmais
  · rw [validators_quieto (k := s.contracts) (m := s.totalMinted), ← h.forma]

/-- The numbers of the record of a quiet account. -/
def camposQuietos (saldo stake : Amount) : List (String × ℕ) :=
  [("balance", saldo), ("bandwidthBlock", 0), ("bandwidthUsed", 0), ("delegatedIn", 0),
    ("delegatedOut", 0), ("energyBlock", 0), ("energyUsed", 0), ("nonce", 0), ("staked", stake)]

theorem tamanho_conta (h : Parado n s) (hn : n ≤ 10 ^ 6) {a : String} {acc : Account}
    (hg : s.accounts.get? a = some acc) : acc.toValue.tamanho < 2 ^ 32 := by
  obtain ⟨saldo, stake, rfl, hsaldo, hstake⟩ := h.contas a acc hg
  have hs : saldo < u128Limit := (Nat.le_add_right _ _).trans_lt (cabe hn hsaldo)
  have hk : stake < u128Limit := lt_of_le_of_lt hstake (by decide)
  have hlista : ∀ q ∈ camposQuietos saldo stake, q.1.toList.length ≤ 14 ∧ q.2 < u128Limit := by
    simp only [camposQuietos, List.forall_mem_cons]
    exact ⟨⟨by decide, hs⟩, by decide, by decide, by decide, by decide, by decide, by decide,
      by decide, ⟨by decide, hk⟩, by simp⟩
  have hforma : (contaQuieta saldo stake).toValue =
      Value.campos ((camposQuietos saldo stake).map fun q => (q.1, Value.uint q.2)) := by
    simp only [Account.toValue, contaQuieta, camposQuietos, List.map_cons, List.map_nil]
    rfl
  rw [hforma]
  exact lt_of_le_of_lt (Value.tamanho_campos_uint_le _ hlista) (by simp [camposQuietos])

theorem tamanho_anel (h : Parado n s) (hn : n ≤ 10 ^ 6) {a : String} {ctr : Contract}
    (hg : s.contracts.get? a = some ctr) : ctr.toValue.tamanho < 2 ^ 32 := by
  obtain ⟨hcode, hbal, hnonce, hsize, hcurto⟩ := h.anel a ctr hg
  have hstorage : (Value.mapaCom .str ctr.storage).tamanho ≤ 5 + 538 * ctr.storage.size := by
    refine Value.tamanho_mapaCom_le _ _ fun k v hv => ?_
    obtain ⟨hk, hvl⟩ := hcurto k v hv
    exact (Value.tamanhoPar_le hk (Value.tamanho_str_le hvl)).trans (by decide)
  have hzero : (Value.uint 0).tamanho ≤ 161 := Value.tamanho_uint_le (by decide)
  have h1 := Value.tamanhoPar_le (by decide : "balance".toList.length ≤ 7) hzero
  have h2 := Value.tamanhoPar_le (by decide : "code".toList.length ≤ 4)
    (Value.tamanho_str_le (by decide : "".toList.length ≤ 0))
  have h3 := Value.tamanhoPar_le (by decide : "nonce".toList.length ≤ 5) hzero
  have h4 := Value.tamanhoPar_le (by decide : "storage".toList.length ≤ 7) hstorage
  refine lt_of_le_of_lt (Value.tamanho_campos_le _) ?_
  rw [Value.tamanhoPares_eq_sum, hcode, hbal, hnonce]
  simp only [List.map_cons, List.map_nil, List.sum_cons, List.sum_nil]
  omega

theorem secao_vazia {ν : Type} (dominio : String) (f : ν → Value) : secao dominio f ∅ = [] := rfl

/-- The leaves of the sections that hold nothing. -/
def restoQuieto : List Registro :=
  [("gov", "params", .map []), ("treasury", "balance", .uint 0), ("slash", "set", .map []),
    ("unbond", "queue", .list []), ("brg", "state", ({} : Bridge).toValue),
    ("brg", "relayers", .map []), ("brg", "committees", .map [])]

theorem enumerar_quieto (a : OrdMap String Account) (k : OrdMap String Contract) (m : Amount) :
    (quieto a k m).enumerar = [("meta", "totalMinted", .uint m), ("meta", "totalBurned", .uint 0)] ++
      secao "acct" Account.toValue a ++ secao "ctr" Contract.toValue k ++ restoQuieto := by
  unfold State.enumerar quieto
  simp only [secao_vazia, List.append_nil, List.append_assoc]
  rfl

/-- The root of a quiet state exists: no value is too long for its encoding. -/
theorem stateRootOf_ok (h : Parado n s) (hn : n ≤ 10 ^ 6) (cr : Cripto) :
    ∃ raiz, cr.stateRootOf s = .ok raiz := by
  refine cr.stateRootOf_ok ?_
  have hminted : s.totalMinted < u128Limit := (Nat.le_add_right _ _).trans_lt (cabe hn h.emitido)
  have hresto : ∀ e ∈ restoQuieto, e.2.2.tamanho < 2 ^ 32 := by decide +kernel
  rw [h.forma, enumerar_quieto]
  intro e he
  simp only [List.mem_append] at he
  rcases he with ((he | he) | he) | he
  · rcases List.mem_pair.mp he with rfl | rfl
    · exact lt_of_le_of_lt (Value.tamanho_uint_le hminted) (by decide)
    · exact lt_of_le_of_lt (Value.tamanho_uint_le (by decide)) (by decide)
  · obtain ⟨⟨a, acc⟩, hmem, rfl⟩ := List.mem_map.mp he
    exact h.tamanho_conta hn (OrdMap.mem_entries_iff.mp hmem)
  · obtain ⟨⟨a, ctr⟩, hmem, rfl⟩ := List.mem_map.mp he
    exact h.tamanho_anel hn (OrdMap.mem_entries_iff.mp hmem)
  · exact hresto e he

end Parado

/-! ## Hashes are well formed -/

theorem isValidHash_hexEncode {bs : Bytes} (h : bs.length = 32) :
    isValidHash (hexEncode bs) = true := by
  have hbyte : ∀ b : UInt8, (hexByte false b).length = 2 ∧
      (hexByte false b).all (fun c => ('0' ≤ c && c ≤ '9') || ('a' ≤ c && c ≤ 'f')) = true := by
    intro b
    refine ⟨rfl, ?_⟩
    have hdigito : ∀ n < 16, (fun c : Char => ('0' ≤ c && c ≤ '9') || ('a' ≤ c && c ≤ 'f'))
        (if n < 10 then Char.ofNat (48 + n) else Char.ofNat (87 + n)) = true := by decide
    have hb := b.toNat_lt
    have h1 := hdigito (b.toNat / 16) (by omega)
    have h2 := hdigito (b.toNat % 16) (by omega)
    simp only [hexByte, List.all_cons, List.all_nil, Bool.and_true]
    exact Bool.and_eq_true_iff.mpr ⟨h1, h2⟩
  have hlen : ∀ bs : Bytes, (bs.flatMap (hexByte false)).length = 2 * bs.length := by
    intro bs
    induction bs with
    | nil => rfl
    | cons b bs ih =>
      rw [List.flatMap_cons, List.length_append, ih, (hbyte b).1, List.length_cons]
      omega
  unfold isValidHash hexEncode
  rw [String.toList_ofList, hlen, h]
  refine Bool.and_eq_true_iff.mpr ⟨rfl, ?_⟩
  rw [List.all_flatMap]
  exact List.all_eq_true.mpr fun b _ => (hbyte b).2

namespace Cripto

variable {cr : Cripto}

/-- Every digest has 32 bytes. -/
def Digere (cr : Cripto) : Prop := ∀ data, (cr.sha3 data).length = 32

theorem Digere.eavHash (h : cr.Digere) (data : Bytes) : isValidHash (cr.eavHash data) = true :=
  isValidHash_hexEncode (h data)

theorem Digere.merkleNivel (h : cr.Digere) : ∀ nivel : List String,
    (∀ x ∈ cr.merkleNivel nivel, isValidHash x = true) ∧
      (cr.merkleNivel nivel).length = (nivel.length + 1) / 2
  | [] => ⟨fun x hx => (List.not_mem_nil hx).elim, rfl⟩
  | [a] => by
    rw [Cripto.merkleNivel]
    refine ⟨fun x hx => ?_, by simp⟩
    rw [List.mem_singleton.mp hx]
    exact h.eavHash _
  | a :: b :: resto => by
    obtain ⟨hv, hl⟩ := h.merkleNivel resto
    rw [Cripto.merkleNivel]
    refine ⟨?_, ?_⟩
    · rintro x (_ | ⟨_, hx⟩)
      · exact h.eavHash _
      · exact hv x hx
    · rw [List.length_cons, hl, List.length_cons, List.length_cons]
      omega

theorem Digere.merkleSobe (h : cr.Digere) (fuel : ℕ) {nivel : List String}
    (hv : ∀ x ∈ nivel, isValidHash x = true) (hne : nivel ≠ []) (hf : nivel.length ≤ fuel + 1) :
    isValidHash (cr.merkleSobe fuel nivel) = true := by
  induction fuel generalizing nivel with
  | zero =>
    obtain ⟨a, resto, rfl⟩ := List.exists_cons_of_ne_nil hne
    exact hv a List.mem_cons_self
  | succ fuel ih =>
    match nivel with
    | [] => exact absurd rfl hne
    | [a] => exact hv a List.mem_cons_self
    | a :: b :: resto =>
      obtain ⟨hn, hl⟩ := h.merkleNivel (a :: b :: resto)
      refine ih hn ?_ ?_
      · intro hc
        rw [hc] at hl
        simp only [List.length_nil, List.length_cons] at hl
        omega
      · rw [hl]
        simp only [List.length_cons] at hf ⊢
        omega

theorem Digere.folhas (h : cr.Digere) {es : List Registro} {fs : List String}
    (hfs : cr.folhas es = .ok fs) : ∀ f ∈ fs, isValidHash f = true := by
  induction es generalizing fs with
  | nil =>
    cases hfs
    exact fun f hf => (List.not_mem_nil hf).elim
  | cons e es ih =>
    rw [Cripto.folhas] at hfs
    obtain ⟨f, hf, hfs⟩ := except_bind_eq_ok.mp hfs
    obtain ⟨fs', hfs', hfs⟩ := except_bind_eq_ok.mp hfs
    cases hfs
    obtain ⟨bs, -, hf⟩ := except_bind_eq_ok.mp hf
    cases hf
    rintro x (_ | ⟨_, hx⟩)
    · exact h.eavHash _
    · exact ih hfs' x hx

theorem Digere.stateRootOf (h : cr.Digere) {s : State} {raiz : String}
    (hr : cr.stateRootOf s = .ok raiz) : isValidHash raiz = true := by
  unfold Cripto.stateRootOf Cripto.stateLeaves at hr
  cases hfs : cr.folhas s.enumerar with
  | error e =>
    rw [hfs] at hr
    cases hr
  | ok fs =>
    rw [hfs] at hr
    cases hr
    have hv := h.folhas hfs
    unfold computeStateRoot merkleRoot
    split_ifs with hvazio
    · exact h.eavHash _
    · refine h.merkleSobe _ (fun x hx => hv x ?_) hvazio (Nat.le_succ _)
      exact (List.perm_insertionSort _ fs).mem_iff.mp hx

end Cripto

/-! ## Producers -/

/-- A producer: its signer, its address and its keys on the wire. -/
structure Produtor where
  signer : BlockSigner
  endereco : String
  pk : String
  pq : String

/-- The network accepts the signatures of the producer. -/
structure Produtor.Capaz (cr : Cripto) (p : Produtor) : Prop where
  endereco : enderecoDoProdutor cr p.signer = .ok p.endereco
  fio : chavesNoFio p.signer false = .ok (some p.pk, some p.pq)
  derivado : cr.addressFromPublicKeys p.pk p.pq = some p.endereco
  assina : ∀ payload, ∃ a b, p.signer.sign payload = .ok (a, b) ∧
    cr.hybridVerify p.pk p.pq payload a b = true

/-- The keys that a block carries. -/
def Produtor.levadas (p : Produtor) (omitir : Bool) : Option String × Option String :=
  if omitir then (none, none) else (some p.pk, some p.pq)

theorem Produtor.Capaz.chavesNoFio {cr : Cripto} {p : Produtor} (hp : p.Capaz cr) (omitir : Bool) :
    Eav7.chavesNoFio p.signer omitir = .ok (p.levadas omitir) := by
  cases omitir with
  | true => rfl
  | false => exact hp.fio

/-- A block built by a capable producer passes the integrity check of whoever has the
keys it leaves out. -/
theorem Produtor.Capaz.constroi {cr : Cripto} {p : Produtor} (hp : p.Capaz cr) (d : BuildParams)
    {raiz : String} {chaves : Option (String × String)} (hroot : d.stateRoot = some raiz)
    (hraiz : isValidHash raiz = true) (hconta : d.producerAccount = none) (hpos : 0 < d.height)
    (hheight : d.height ≤ maxSafeInteger) (htpos : 0 < d.timestamp)
    (hts : d.timestamp ≤ maxSafeInteger)
    (hchaves : d.omitPublicKeys = true → chaves = some (p.pk, p.pq)) :
    ∃ b, buildBlock cr p.signer d = .ok b ∧ cr.verifyBlockIntegrityEx b chaves = .ok () ∧
      (b.publicKey, b.pqPublicKey) = p.levadas d.omitPublicKeys ∧ b.producer = p.endereco := by
  obtain ⟨height, previousHash, timestamp, transactions, stateRoot, producerAccount, omitir⟩ := d
  dsimp only at hroot hconta hpos hheight htpos hts hchaves ⊢
  subst hroot
  subst hconta
  let nucleo : Block := {
    height := height, timestamp := timestamp, previousHash := previousHash
    txRoot := cr.blockTxRoot transactions, txCount := transactions.length, producer := p.endereco
    publicKey := (p.levadas omitir).1, pqPublicKey := (p.levadas omitir).2
    stateRoot := some raiz, signature := "", pqSignature := "", hash := ""
    transactions := transactions }
  obtain ⟨a, b, hsign, hver⟩ := hp.assina (bytesDe nucleo.payload)
  refine ⟨{ nucleo with hash := cr.blockHash nucleo.payload, signature := a, pqSignature := b },
    ?_, ?_, rfl, rfl⟩
  · unfold buildBlock
    refine except_bind_eq_ok.mpr ⟨_, hp.endereco, ?_⟩
    refine except_bind_eq_ok.mpr ⟨_, hp.chavesNoFio omitir, ?_⟩
    exact except_bind_eq_ok.mpr ⟨(a, b), hsign, rfl⟩
  · unfold Cripto.verifyBlockIntegrityEx
    refine except_bind_eq_ok.mpr ⟨(), ?_, ?_⟩
    · unfold Cripto.verifyBlockHeader
      refine except_bind_eq_ok.mpr ⟨(), rfl, except_bind_eq_ok.mpr ⟨(), rfl, ?_⟩⟩
      refine except_bind_eq_ok.mpr ⟨(), falharSe_eq_ok.mpr (not_lt.mpr hheight), ?_⟩
      refine except_bind_eq_ok.mpr ⟨(), falharSe_eq_ok.mpr ?_,
        except_bind_eq_ok.mpr ⟨(), falharSe_eq_ok.mpr (not_not.mpr rfl), ?_⟩⟩
      · rintro (h | h)
        · exact absurd h (not_le.mpr htpos)
        · exact absurd h (not_lt.mpr hts)
      · refine except_bind_eq_ok.mpr ⟨(), falharSe_eq_ok.mpr (not_not.mpr rfl), ?_⟩
        exact falharSe_eq_ok.mpr (not_not.mpr rfl)
    · rw [if_neg (Nat.pos_iff_ne_zero.mp hpos)]
      have hr : falharSe ((nucleo.stateRoot.map isValidHash) ≠ some true)
          "stateRoot ausente ou malformado" = .ok () := by
        refine falharSe_eq_ok.mpr (not_not.mpr ?_)
        exact congrArg some hraiz
      refine except_bind_eq_ok.mpr ⟨(), hr, except_bind_eq_ok.mpr ⟨(), rfl, ?_⟩⟩
      refine except_bind_eq_ok.mpr ⟨(p.pk, p.pq), ?_, ?_⟩
      · cases homit : omitir with
        | true =>
          rw [hchaves homit]
          simp only [nucleo, homit]
          rfl
        | false =>
          simp only [nucleo, homit]
          rfl
      · simp only [hp.derivado]
        refine except_bind_eq_ok.mpr ⟨(), falharSe_eq_ok.mpr (not_not.mpr rfl), ?_⟩
        refine falharSe_eq_ok.mpr ?_
        rw [Bool.not_eq_false]
        exact hver

namespace Blockchain

section

variable {amb : Ambiente} {ps : List Produtor} {n : ℕ} {c c' : Blockchain}

/-! ## A produced block is accepted everywhere -/

theorem montarBloco_raiz {signer : BlockSigner} {transactions : List Tx} {timestamp : ℤ}
    {producerAccount : Option String} {bloco : Block} {recibos : Recibos} {sim : State}
    (h : c.montarBloco amb signer transactions timestamp producerAccount =
      .ok (bloco, recibos, sim)) : conferirStateRoot amb bloco sim = .ok () := by
  obtain ⟨cabeca, raiz, omite, -, hraiz, hb⟩ := montarBloco_ok h
  obtain ⟨-, -, hroot, -⟩ := buildBlock_campos hb
  unfold conferirStateRoot
  rw [hraiz]
  refine except_bind_eq_ok.mpr ⟨raiz, rfl, falharSe_eq_ok.mpr (not_not.mpr ?_)⟩
  rw [hroot]
  rfl

/-- Whatever one node produces, a node with the same chain accepts, and both reach
the same chain. -/
theorem addBlock_of_produceBlock {signer : BlockSigner} {transactions : List Tx} {timestamp : ℤ}
    {producerAccount : Option String} {now : ℤ} {b : Block}
    (h : produceBlock amb signer transactions timestamp producerAccount now c = .ok b c') :
    addBlock amb b now c = .ok () c' := by
  obtain ⟨recibos, sim, hm, hconf, hgrava⟩ := produceBlock_ok h
  have hsim : c.simularBloco amb b = .ok (recibos, sim) := by
    unfold simularBloco
    refine except_bind_eq_ok.mpr ⟨_, executar_eq_ok.mpr (montarBloco_simulado hm), ?_⟩
    exact except_bind_eq_ok.mpr ⟨(), montarBloco_raiz hm, rfl⟩
  exact addBlock_eq_ok.mpr ⟨hconf, recibos, sim, hsim, hgrava⟩

/-! ## The next block -/

/-- A chain ready for the block of height `n + 1`: its state is quiet and its
validators are the producers, in order. -/
structure Pronta (amb : Ambiente) (ps : List Produtor) (n : ℕ) (c : Blockchain) : Prop where
  semDisco : c.store = none
  emUso : c.loading = false
  cabeca : ∃ u, c.head = some u ∧ u.height = n ∧ isValidHash u.hash = true
  parado : Parado n c.state
  rede : ∃ vs, c.state.validators = .ok vs ∧ vs.map (·.address) = ps.map (·.endereco)
  chaves : ∀ p ∈ ps, ∀ ks, c.producerKeys.get? p.endereco = some ks → ks = (p.pk, p.pq)

/-- A chain in use whose validators are the producers, in order. -/
structure Apta (amb : Ambiente) (ps : List Produtor) (c : Blockchain) : Prop where
  emUso : c.loading = false
  cabeca : ∃ u, c.head = some u ∧ u.height < 10 ^ 6 ∧ isValidHash u.hash = true
  rede : ∃ vs, c.state.validators = .ok vs ∧ vs.map (·.address) = ps.map (·.endereco)
  chaves : ∀ p ∈ ps, ∀ ks, c.producerKeys.get? p.endereco = some ks → ks = (p.pk, p.pq)

theorem Pronta.apta (h : Pronta amb ps n c) (hn : n < 10 ^ 6) : Apta amb ps c := by
  obtain ⟨u, hu, halt, hhash⟩ := h.cabeca
  exact ⟨h.emUso, ⟨u, hu, halt ▸ hn, hhash⟩, h.rede, h.chaves⟩

/-- The timestamp at the start of a slot. -/
def inicioDoSlot (slot : ℕ) : ℤ := Config.blockTimeMs * slot

theorem slotFor_inicioDoSlot (slot : ℕ) : slotFor (inicioDoSlot slot) = slot := by
  unfold slotFor inicioDoSlot
  exact Int.mul_fdiv_cancel_left _ (by decide)

theorem Apta.esperado (h : Apta amb ps c) {slot : ℕ} {p : Produtor}
    (hp : ps[slot % ps.length]? = some p) :
    c.expectedProducer (inicioDoSlot slot) = .ok (some p.endereco) := by
  obtain ⟨vs, hvs, hnomes⟩ := h.rede
  have hlen : vs.length = ps.length := by
    have := congrArg List.length hnomes
    rwa [List.length_map, List.length_map] at this
  unfold expectedProducer
  have hler : ler c.state.validators = .ok vs := by rw [hvs]; rfl
  refine except_bind_eq_ok.mpr ⟨vs, hler, ?_⟩
  have hidx : ((slotFor (inicioDoSlot slot)).fmod vs.length).toNat = slot % ps.length := by
    rw [slotFor_inicioDoSlot, hlen, Int.fmod_eq_emod_of_nonneg _ (Int.natCast_nonneg _)]
    rw [← Int.natCast_mod, Int.toNat_natCast]
  rw [hidx]
  have hget : (vs.map (·.address))[slot % ps.length]? = some p.endereco := by
    rw [hnomes, List.getElem?_map, hp]
    rfl
  rw [List.getElem?_map] at hget
  exact congrArg Except.ok hget

/-- The outcome of one turn. -/
structure Turno (c : Blockchain) (p : Produtor) (n slot : ℕ) (b : Block) (c' : Blockchain) :
    Prop where
  altura : b.height = n + 1
  instante : b.timestamp = inicioDoSlot slot
  produtor : b.producer = p.endereco
  chaves : (b.publicKey, b.pqPublicKey) = p.levadas (c.producerKeys.contains p.endereco)
  cadeia : ∃ sim, c' = c.aceitar b sim []

theorem length_of_isValidHash {h : String} (hv : isValidHash h = true) : h.toList.length = 64 := by
  unfold isValidHash at hv
  exact beq_iff_eq.mp (Bool.and_eq_true_iff.mp hv).1

theorem slotFor_mono {s t : ℤ} (h : s ≤ t) : slotFor s ≤ slotFor t := by
  unfold slotFor
  rw [Int.fdiv_eq_ediv_of_nonneg _ (by decide), Int.fdiv_eq_ediv_of_nonneg _ (by decide)]
  exact Int.ediv_le_ediv (by decide) h

/-- The block is in the turn of its producer and follows the head. -/
theorem Apta.confere (h : Apta amb ps c) {slot : ℕ} {p : Produtor} {now : ℤ} {b u : Block}
    (hp : ps[slot % ps.length]? = some p) (hslot : slot ≤ 10 ^ 6) (hnow : 10 ^ 9 ≤ now)
    (hu : c.head = some u) (hantes : slotFor u.timestamp < slot) (helo : Elo u b)
    (hts : b.timestamp = inicioDoSlot slot) (hprod : b.producer = p.endereco)
    (hconta : b.producerAccount = none)
    (htxs : b.transactions.length ≤ Config.maxTxsPerBlock)
    (hint : amb.cripto.verifyBlockIntegrityEx b (c.producerKeys.get? p.endereco) = .ok ()) :
    c.conferirBloco amb b now = .ok () := by
  have hfim : inicioDoSlot slot ≤ 10 ^ 9 := by
    unfold inicioDoSlot Config.blockTimeMs
    omega
  have hgen : c.hasGenesis = true := by
    unfold hasGenesis
    cases htail : c.tail with
    | nil => simp [head, htail] at hu
    | cons x xs => rfl
  have hval : b.validator = p.endereco := by
    rw [Block.validator, hconta, hprod]
    rfl
  have hsb : slotFor b.timestamp = slot := by rw [hts, slotFor_inicioDoSlot]
  have hcab : c.conferirCabeca b = .ok () := by
    unfold conferirCabeca
    rw [hu]
    refine except_bind_eq_ok.mpr ⟨(), falharSe_eq_ok.mpr (not_not.mpr helo.1), ?_⟩
    refine except_bind_eq_ok.mpr ⟨(), falharSe_eq_ok.mpr (not_not.mpr helo.2), ?_⟩
    refine except_bind_eq_ok.mpr ⟨(), falharSe_eq_ok.mpr ?_, ?_⟩
    · intro hle
      have := slotFor_mono hle
      omega
    · refine except_bind_eq_ok.mpr ⟨(), falharSe_eq_ok.mpr (by omega), ?_⟩
      exact falharSe_eq_ok.mpr (not_lt.mpr htxs)
  obtain ⟨vs, hvs, hnomes⟩ := h.rede
  have hler : ler c.state.validators = .ok vs := by rw [hvs]; rfl
  have hvazio : vs ≠ [] := by
    rintro rfl
    have hps : ps = [] := List.map_eq_nil_iff.mp hnomes.symm
    rw [hps] at hp
    cases hp
  have hprodutor : c.conferirProdutor b now = .ok () := by
    unfold conferirProdutor
    refine except_bind_eq_ok.mpr ⟨(), falharSe_eq_ok.mpr (not_lt.mpr ?_), ?_⟩
    · refine slotFor_mono (?_ : b.timestamp ≤ _)
      have : (0 : ℤ) ≤ Config.slotFutureToleranceMs := by decide
      omega
    refine except_bind_eq_ok.mpr ⟨(), falharSe_eq_ok.mpr (not_lt.mpr ?_), ?_⟩
    · have : (0 : ℤ) ≤ Config.maxClockDriftMs := by decide
      omega
    refine except_bind_eq_ok.mpr ⟨vs, hler, ?_⟩
    refine except_bind_eq_ok.mpr ⟨(), falharSe_eq_ok.mpr hvazio, ?_⟩
    refine except_bind_eq_ok.mpr ⟨(), ?_, ?_⟩
    · unfold conferirWitness
      rw [hconta]
    refine except_bind_eq_ok.mpr ⟨_, hts ▸ h.esperado hp, falharSe_eq_ok.mpr (not_not.mpr ?_)⟩
    rw [hval]
  unfold conferirBloco
  refine except_bind_eq_ok.mpr ⟨(), falharSe_eq_ok.mpr (by rw [hgen]; simp), ?_⟩
  refine except_bind_eq_ok.mpr ⟨(), hprod ▸ hint, except_bind_eq_ok.mpr ⟨(), hcab, ?_⟩⟩
  rw [if_neg (by rw [h.emUso]; simp)]
  exact hprodutor

/-- A block that continues a chain at a slot of its producer. -/
structure Proximo (amb : Ambiente) (c : Blockchain) (u : Block) (p : Produtor) (slot : ℕ)
    (txs : List Tx) (b : Block) : Prop where
  elo : Elo u b
  instante : b.timestamp = inicioDoSlot slot
  produtor : b.producer = p.endereco
  semConta : b.producerAccount = none
  txs : b.transactions = txs
  chaves : (b.publicKey, b.pqPublicKey) = p.levadas (c.producerKeys.contains p.endereco)
  integro : amb.cripto.verifyBlockIntegrityEx b (c.producerKeys.get? p.endereco) = .ok ()

/-- The producer of a slot builds the next block of any transactions that its node can
simulate. -/
theorem Apta.monta (h : Apta amb ps c) (hd : amb.cripto.Digere) {slot : ℕ} {p : Produtor}
    {u : Block} (hu : c.head = some u) (hcap : p.Capaz amb.cripto) (hmem : p ∈ ps)
    (hp : ps[slot % ps.length]? = some p) (hpos : 0 < slot) (hslot : slot ≤ 10 ^ 6)
    {txs : List Tx} {recibos : Recibos} {sim : State} {raiz : String}
    (hsim : c.simulate amb (esboco amb p.signer p.endereco u txs (inicioDoSlot slot) none) c.state =
      .ok recibos sim) (hraiz : amb.cripto.stateRootOf sim = .ok raiz) :
    ∃ b, c.montarBloco amb p.signer txs (inicioDoSlot slot) none = .ok (b, recibos, sim) ∧
      b.stateRoot = some raiz ∧ Proximo amb c u p slot txs b := by
  obtain ⟨u', hu', halt, hhash⟩ := h.cabeca
  obtain rfl : u = u' := Option.some.inj (hu.symm.trans hu')
  have hgen : c.hasGenesis = true := by
    unfold hasGenesis
    cases htail : c.tail with
    | nil => simp [head, htail] at hu
    | cons x xs => rfl
  have hts : 0 < inicioDoSlot slot ∧ inicioDoSlot slot ≤ maxSafeInteger := by
    have hmax : (10 : ℤ) ^ 9 ≤ maxSafeInteger := by decide
    unfold inicioDoSlot Config.blockTimeMs
    omega
  have hmaxh : u.height + 1 ≤ maxSafeInteger := by
    have hmax : 10 ^ 6 ≤ maxSafeInteger := by decide
    omega
  let d : BuildParams :=
    { height := u.height + 1, previousHash := u.hash, timestamp := inicioDoSlot slot,
      transactions := txs, stateRoot := some raiz, producerAccount := none,
      omitPublicKeys := c.producerKeys.contains p.endereco }
  have hchaves : d.omitPublicKeys = true →
      c.producerKeys.get? p.endereco = some (p.pk, p.pq) := by
    intro hc
    obtain ⟨ks, hks⟩ := OrdMap.contains_iff.mp hc
    rw [hks, h.chaves p hmem ks hks]
  obtain ⟨b, hb, hint, hlev, hprod⟩ := hcap.constroi d rfl (hd.stateRootOf hraiz) rfl
    (Nat.succ_pos _) hmaxh hts.1 hts.2 hchaves
  obtain ⟨⟨hh, ht, hprev, htxs⟩, hconta, hroot, -⟩ := buildBlock_campos hb
  refine ⟨b, ?_, hroot, ⟨hh, hprev⟩, ht, hprod, hconta, htxs, hlev, hint⟩
  unfold montarBloco
  refine except_bind_eq_ok.mpr ⟨(), falharSe_eq_ok.mpr (by rw [hgen]; simp), ?_⟩
  refine except_bind_eq_ok.mpr ⟨_, hcap.endereco, except_bind_eq_ok.mpr ⟨_, h.esperado hp, ?_⟩⟩
  refine except_bind_eq_ok.mpr ⟨(), falharSe_eq_ok.mpr (not_not.mpr rfl), ?_⟩
  rw [hu]
  refine except_bind_eq_ok.mpr ⟨_, executar_eq_ok.mpr hsim, ?_⟩
  refine except_bind_eq_ok.mpr ⟨raiz, by rw [hraiz]; rfl, ?_⟩
  exact except_bind_eq_ok.mpr ⟨b, hb, rfl⟩

theorem gravarBloco_semDisco (hst : c.store = none) (b : Block) (sim : State) (recibos : Recibos) :
    gravarBloco amb b sim recibos c = .ok () (c.aceitar b sim recibos) := by
  unfold gravarBloco
  refine bind_eq_ok.mpr ⟨(), c, noDisco_livre (.inl hst), ?_⟩
  rw [modify_bind_run]
  exact slideTail_semDisco hst

/-- The keys remembered after the block are those of its producer. -/
theorem Apta.lembra (h : Apta amb ps c) {p : Produtor} {b : Block}
    (hdif : ∀ q ∈ ps, q.endereco = p.endereco → q = p) (hprod : b.producer = p.endereco)
    (hlev : (b.publicKey, b.pqPublicKey) = p.levadas (c.producerKeys.contains p.endereco)) :
    ∀ q ∈ ps, ∀ ks, (lembraChaves b c.producerKeys).get? q.endereco = some ks →
      ks = (q.pk, q.pq) := by
  intro q hq ks hks
  unfold Produtor.levadas at hlev
  unfold lembraChaves at hks
  split_ifs at hlev with hc
  · obtain ⟨hpk, hpq⟩ := Prod.mk.inj hlev
    rw [hpk, hpq] at hks
    exact h.chaves q hq ks hks
  · obtain ⟨hpk, hpq⟩ := Prod.mk.inj hlev
    rw [hpk, hpq, hprod] at hks
    dsimp only at hks
    rw [OrdMap.get?_insert] at hks
    split_ifs at hks with he
    · rw [hdif q hq he]
      exact (Option.some.inj hks).symm
    · exact h.chaves q hq ks hks

/-- Without a disk the producer of a slot extends the chain with the transactions that
its node can simulate. -/
theorem Apta.produz (h : Apta amb ps c) (hst : c.store = none) (hd : amb.cripto.Digere)
    (slot : ℕ) {p : Produtor} {u : Block} {now : ℤ} (hu : c.head = some u)
    (hcap : p.Capaz amb.cripto) (hmem : p ∈ ps) (hp : ps[slot % ps.length]? = some p)
    (hpos : 0 < slot) (hslot : slot ≤ 10 ^ 6) (hnow : 10 ^ 9 ≤ now)
    (hantes : slotFor u.timestamp < slot) {txs : List Tx}
    (htxs : txs.length ≤ Config.maxTxsPerBlock) {recibos : Recibos} {sim : State} {raiz : String}
    (hsim : c.simulate amb (esboco amb p.signer p.endereco u txs (inicioDoSlot slot) none) c.state =
      .ok recibos sim) (hraiz : amb.cripto.stateRootOf sim = .ok raiz) :
    ∃ b, produceBlock amb p.signer txs (inicioDoSlot slot) none now c =
        .ok b (c.aceitar b sim recibos) ∧ b.stateRoot = some raiz ∧
      Proximo amb c u p slot txs b := by
  obtain ⟨b, hm, hroot, hb⟩ := h.monta hd hu hcap hmem hp hpos hslot hsim hraiz
  have hconf := h.confere hp hslot hnow hu hantes hb.elo hb.instante hb.produtor hb.semConta
    (hb.txs ▸ htxs) hb.integro
  refine ⟨b, ?_, hroot, hb⟩
  unfold produceBlock
  rw [get_bind_run]
  refine bind_eq_ok.mpr ⟨_, c, conferir_eq_ok.mpr ⟨hm, rfl⟩, ?_⟩
  refine bind_eq_ok.mpr ⟨(), c, conferir_eq_ok.mpr ⟨hconf, rfl⟩, ?_⟩
  exact bind_eq_ok.mpr ⟨(), _, gravarBloco_semDisco hst b sim recibos, rfl⟩

/-- A producer extends a ready chain at its slot. -/
theorem Pronta.produz (h : Pronta amb ps n c) (hd : amb.cripto.Digere)
    (hcap : ∀ p ∈ ps, p.Capaz amb.cripto) (hdif : (ps.map (·.endereco)).Nodup) {slot : ℕ}
    {p : Produtor} {now : ℤ} (hp : ps[slot % ps.length]? = some p) (hn : n < 10 ^ 6)
    (hpos : 0 < slot) (hslot : slot ≤ 10 ^ 6) (hnow : 10 ^ 9 ≤ now)
    (hantes : ∀ u, c.head = some u → slotFor u.timestamp < slot) :
    ∃ b c', produceBlock amb p.signer [] (inicioDoSlot slot) none now c = .ok b c' ∧
      Pronta amb ps (n + 1) c' ∧ Turno c p n slot b c' := by
  obtain ⟨u, hu, halt, hhash⟩ := h.cabeca
  have hmem : p ∈ ps := List.mem_of_getElem? hp
  have hts : 0 ≤ inicioDoSlot slot := by
    unfold inicioDoSlot
    exact Int.mul_nonneg (by decide) (Int.natCast_nonneg _)
  obtain ⟨sim, hsim, hpar, hvals⟩ := h.parado.simulate hn.le c amb
    (b := esboco amb p.signer p.endereco u [] (inicioDoSlot slot) none) rfl hts
    (length_of_isValidHash hhash).le
  obtain ⟨raiz, hraiz⟩ := hpar.stateRootOf_ok hn amb.cripto
  obtain ⟨b, hprod, -, hb⟩ := (h.apta hn).produz h.semDisco hd slot hu (hcap p hmem) hmem hp hpos hslot
    hnow (hantes u hu) (Nat.zero_le _) hsim hraiz
  have hheight : b.height = n + 1 := by rw [hb.elo.1, halt]
  refine ⟨b, c.aceitar b sim [], hprod, ?_,
    ⟨hheight, hb.instante, hb.produtor, hb.chaves, sim, rfl⟩⟩
  have hvalido : isValidHash b.hash = true := by
    rw [hash_of_integrity hb.integro]
    exact hd.eavHash _
  obtain ⟨vs, hvs, hnomes⟩ := h.rede
  have hunico : ∀ q ∈ ps, q.endereco = p.endereco → q = p :=
    fun q hq he => List.inj_on_of_nodup_map hdif hq hmem he
  have hcab : (c.aceitar b sim []).head = some b := aceitar_head b sim []
  have hst : (c.aceitar b sim []).store = none := (aceitar_store b sim []).trans h.semDisco
  have hload : (c.aceitar b sim []).loading = false := (aceitar_loading b sim []).trans h.emUso
  have hrede : ∃ vs, (c.aceitar b sim []).state.validators = .ok vs ∧
      vs.map (·.address) = ps.map (·.endereco) := ⟨vs, hvals.trans hvs, hnomes⟩
  have hchaves : ∀ q ∈ ps, ∀ ks, (c.aceitar b sim []).producerKeys.get? q.endereco = some ks →
      ks = (q.pk, q.pq) := by
    rw [aceitar_producerKeys]
    exact (h.apta hn).lembra hunico hb.produtor hb.chaves
  exact ⟨hst, hload, ⟨b, hcab, hheight, hvalido⟩, hpar, hrede, hchaves⟩

/-! ## Several turns -/

/-- The chain took one block for each slot, by the producer of the slot. -/
structure Cresceu (amb : Ambiente) (ps : List Produtor) (now : ℤ) (slots : List ℕ) (n : ℕ)
    (c : Blockchain) (bs : List Block) (c' : Blockchain) : Prop where
  pronta : Pronta amb ps (n + slots.length) c'
  aceitos : addBlocks amb now bs c = .ok () c'
  tail : c'.tail = c.tail ++ bs
  tailStart : c'.tailStart = c.tailStart
  instantes : bs.map (·.timestamp) = slots.map inicioDoSlot
  produtores : bs.map (·.producer) =
    slots.filterMap fun slot => ps[slot % ps.length]?.map (·.endereco)

/-- A ready chain grows over any increasing slots. -/
theorem Pronta.cresce (h : Pronta amb ps n c) (hd : amb.cripto.Digere)
    (hcap : ∀ p ∈ ps, p.Capaz amb.cripto) (hdif : (ps.map (·.endereco)).Nodup) (hps : ps ≠ [])
    {now : ℤ} (hnow : 10 ^ 9 ≤ now) {s₀ : ℕ} (slots : List ℕ)
    (hantes : ∀ u, c.head = some u → slotFor u.timestamp ≤ s₀)
    (hasc : (s₀ :: slots).Pairwise (· < ·)) (hmax : ∀ s ∈ slots, s ≤ 10 ^ 6)
    (hn : n + slots.length ≤ 10 ^ 6) : ∃ bs c', Cresceu amb ps now slots n c bs c' := by
  induction slots generalizing c n s₀ with
  | nil => exact ⟨[], c, h, rfl, (List.append_nil _).symm, rfl, rfl, rfl⟩
  | cons slot slots ih =>
    obtain ⟨hs₀, hasc'⟩ := List.pairwise_cons.mp hasc
    have hlt : s₀ < slot := hs₀ slot List.mem_cons_self
    rw [List.length_cons] at hn
    have hidx : slot % ps.length < ps.length := Nat.mod_lt _ (List.length_pos_iff.mpr hps)
    have hp : ps[slot % ps.length]? = some ps[slot % ps.length] := List.getElem?_eq_getElem hidx
    obtain ⟨b, c₁, hprod, hpronta, hturno⟩ := h.produz hd hcap hdif hp (by omega) (by omega)
      (hmax slot List.mem_cons_self) hnow fun u hu => by
        have := hantes u hu
        omega
    obtain ⟨sim, hc₁⟩ := hturno.cadeia
    have hcab : ∀ u, c₁.head = some u → slotFor u.timestamp ≤ slot := by
      intro u hu
      rw [hc₁, aceitar_head] at hu
      rw [← Option.some.inj hu, hturno.instante, slotFor_inicioDoSlot]
    obtain ⟨bs, c₂, hcres⟩ := ih hpronta hcab hasc'
      (fun s hs => hmax s (List.mem_cons_of_mem slot hs)) (by omega)
    have hpronta₂ := hcres.pronta
    rw [Nat.add_right_comm, Nat.add_assoc] at hpronta₂
    refine ⟨b :: bs, c₂, hpronta₂, ?_, ?_, ?_, ?_, ?_⟩
    · exact bind_eq_ok.mpr ⟨(), c₁, addBlock_of_produceBlock hprod, hcres.aceitos⟩
    · rw [hcres.tail, hc₁, aceitar_tail, List.append_assoc, List.singleton_append]
    · rw [hcres.tailStart, hc₁, aceitar_tailStart]
    · rw [List.map_cons, List.map_cons, hturno.instante, hcres.instantes]
    · rw [List.map_cons, List.filterMap_cons, hp, hturno.produtor, hcres.produtores]
      rfl

/-- The head of a grown chain is in the last slot. -/
theorem Cresceu.cabeca {now : ℤ} {slots : List ℕ} {bs : List Block}
    (h : Cresceu amb ps now slots n c bs c') {s : ℕ} (hs : slots.getLast? = some s) :
    ∀ u, c'.head = some u → slotFor u.timestamp ≤ s := by
  intro u hu
  have hts := congrArg List.getLast? h.instantes
  rw [List.getLast?_map, List.getLast?_map, hs] at hts
  cases hb : bs.getLast? with
  | none =>
    rw [hb] at hts
    cases hts
  | some b =>
    unfold head at hu
    rw [h.tail, List.getLast?_append, hb] at hu
    rw [hb] at hts
    obtain rfl : b = u := Option.some.inj hu
    have htb : b.timestamp = inicioDoSlot s := Option.some.inj hts
    rw [htb, slotFor_inicioDoSlot]

end
end Blockchain
end Eav7
