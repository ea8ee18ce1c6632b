import Mathlib.Data.Finset.Card
import Mathlib.Logic.Relation
import Eav7.FalhasDoDisco
import Eav7.RedeIdeal

/-!
# Finality over whole runs

The final height is computed again from the blocks and the validators of the
moment, so it can fall. As long as no call takes away the quorum that made a
height final, the blocks up to that height never change.
-/

namespace Eav7.Blockchain

open Base

/-! ## The quorum above a height -/

/-- How many producers signed the blocks above a height. -/
def produtoresAcima (L : List Block) (f : ℕ) : ℕ :=
  ((L.drop (f + 1)).map (·.producer)).toFinset.card

/-- The blocks above a height were produced by two thirds of the validators of
the chain, which are enough for finality. -/
def TemQuorum (L : List Block) (c : Blockchain) (f : ℕ) : Prop :=
  ∃ vs, c.state.validators = .ok vs ∧ Config.finalityMinValidators ≤ vs.length ∧
    2 * vs.length / 3 + 1 ≤ produtoresAcima L f

/-- The walk over the producers of the blocks, from the newest: how many blocks
are below the one that completes the quorum. -/
def varre (quorum : ℕ) : List String → List String → Option ℕ
  | _, [] => none
  | vistos, p :: resto =>
    let vistos := acrescenta p vistos
    if quorum ≤ vistos.length then some resto.length else varre quorum vistos resto

/-- The producers already seen, without repetition. -/
structure Vistos (vistos usados : List String) : Prop where
  nodup : vistos.Nodup
  mem : ∀ x, x ∈ vistos ↔ x ∈ usados

theorem Vistos.acrescenta {vistos usados : List String} (h : Vistos vistos usados) (p : String) :
    Vistos (acrescenta p vistos) (usados ++ [p]) := by
  unfold Blockchain.acrescenta
  by_cases hp : p ∈ vistos
  · rw [if_pos hp]
    refine ⟨h.nodup, fun x => ?_⟩
    rw [List.mem_append, List.mem_singleton, ← h.mem x]
    constructor
    · exact .inl
    · rintro (hx | rfl)
      · exact hx
      · exact hp
  · rw [if_neg hp]
    refine ⟨List.nodup_cons.mpr ⟨hp, h.nodup⟩, fun x => ?_⟩
    rw [List.mem_cons, List.mem_append, List.mem_singleton, ← h.mem x]
    exact or_comm

theorem Vistos.length {vistos usados : List String} (h : Vistos vistos usados) :
    vistos.length = usados.toFinset.card := by
  rw [← List.toFinset_card_of_nodup h.nodup]
  congr 1
  ext x
  rw [List.mem_toFinset, List.mem_toFinset, h.mem x]

/-- The walk stops at the first block with which the quorum is complete. -/
theorem varre_eq_some {quorum : ℕ} {vistos usados l : List String} (h : Vistos vistos usados)
    {m : ℕ} (hm : varre quorum vistos l = some m) :
    m < l.length ∧ quorum ≤ (usados ++ l.take (l.length - m)).toFinset.card := by
  induction l generalizing vistos usados with
  | nil => cases hm
  | cons p resto ih =>
    rw [varre] at hm
    have hv := h.acrescenta p
    by_cases hq : quorum ≤ (acrescenta p vistos).length
    · rw [if_pos hq] at hm
      cases hm
      refine ⟨Nat.lt_succ_self _, ?_⟩
      rw [List.length_cons, Nat.succ_sub le_rfl, Nat.sub_self, List.take_succ_cons, List.take_zero,
        ← hv.length]
      exact hq
    · rw [if_neg hq] at hm
      obtain ⟨hlt, hle⟩ := ih hv hm
      refine ⟨hlt.trans (Nat.lt_succ_self _), ?_⟩
      rw [List.length_cons, Nat.succ_sub hlt.le, List.take_succ_cons]
      rwa [List.append_assoc, List.singleton_append] at hle

/-- A quorum among the newest blocks stops the walk no later than them. -/
theorem varre_of_quorum (quorum : ℕ) {vistos usados l : List String} (h : Vistos vistos usados)
    (hantes : usados.toFinset.card < quorum) {j : ℕ}
    (hj : quorum ≤ (usados ++ l.take j).toFinset.card) :
    ∃ m, varre quorum vistos l = some m ∧ l.length ≤ m + j := by
  induction l generalizing vistos usados j with
  | nil =>
    rw [List.take_nil, List.append_nil] at hj
    omega
  | cons p resto ih =>
    have hv := h.acrescenta p
    cases j with
    | zero =>
      rw [List.take_zero, List.append_nil] at hj
      omega
    | succ j =>
      rw [varre]
      by_cases hq : quorum ≤ (acrescenta p vistos).length
      · rw [if_pos hq]
        refine ⟨_, rfl, ?_⟩
        rw [List.length_cons]
        omega
      · rw [if_neg hq]
        rw [List.take_succ_cons] at hj
        obtain ⟨m, hm, hle⟩ := ih hv (by rw [← hv.length]; omega) (j := j)
          (by rwa [List.append_assoc, List.singleton_append])
        refine ⟨m, hm, ?_⟩
        rw [List.length_cons]
        omega

/-! ## The blocks of a chain -/

/-- The chain holds the end of a list of linked blocks. -/
structure Registro (L : List Block) (c : Blockchain) : Prop where
  tail : c.tail = L.drop c.tailStart
  dentro : c.tailStart < L.length
  encadeada : Encadeada L

section

variable {amb : Ambiente} {L L' : List Block} {c c' : Blockchain}

theorem Registro.head (h : Registro L c) : c.head = L.getLast? := by
  unfold Blockchain.head
  rw [h.tail, List.getLast?_drop, if_neg (by have := h.dentro; omega)]

theorem Registro.height (h : Registro L c) : c.height = (L.length : ℤ) - 1 := by
  have hpos : 0 < L.length := lt_of_le_of_lt (Nat.zero_le _) h.dentro
  have hidx : L[L.length - 1]? = c.head := by rw [h.head, List.getLast?_eq_getElem?]
  unfold Blockchain.height
  cases hu : c.head with
  | none =>
    rw [hu] at hidx
    have := List.getElem?_eq_none_iff.mp hidx
    omega
  | some u =>
    rw [hu] at hidx
    have halt := h.encadeada.altura hidx
    simp only [Option.elim_some, halt]
    omega

theorem Registro.getBlock (h : Registro L c) {k : ℕ} (hk : c.tailStart ≤ k) (hlt : k < L.length) :
    c.getBlock k = L[k]? := by
  unfold Blockchain.getBlock
  rw [h.height, if_neg (by omega), h.tail, List.getElem?_drop]
  congr 1
  omega

theorem Registro.procuraFinal (h : Registro L c) {quorum n : ℕ} (vistos : List String)
    (hn : n < L.length) : c.procuraFinal quorum vistos n =
      match varre quorum vistos (((L.take (n + 1)).drop (max c.tailStart 1)).map
        (·.producer)).reverse with
      | none => -1
      | some m => (max c.tailStart 1 : ℕ) + (m : ℤ) - 1 := by
  generalize hpiso : max c.tailStart 1 = piso
  induction n generalizing vistos with
  | zero =>
    have hvazia : (L.take (0 + 1)).drop piso = [] := by
      refine List.drop_eq_nil_of_le ?_
      rw [List.length_take]
      omega
    rw [hvazia]
    rfl
  | succ n ih =>
    rw [Blockchain.procuraFinal, hpiso]
    by_cases hbaixo : n + 1 < piso
    · have hvazia : (L.take (n + 1 + 1)).drop piso = [] := by
        refine List.drop_eq_nil_of_le ?_
        rw [List.length_take]
        omega
      rw [if_pos hbaixo, hvazia]
      rfl
    · have hget := h.getBlock (k := n + 1) (by omega) hn
      have hb : L[n + 1]? = some L[n + 1] := List.getElem?_eq_getElem hn
      have hlista : (L.take (n + 1 + 1)).drop piso = (L.take (n + 1)).drop piso ++ [L[n + 1]] := by
        rw [← List.take_append_getElem hn, List.drop_append_of_le_length]
        rw [List.length_take]
        omega
      have htam : ((((L.take (n + 1)).drop piso).map (·.producer)).reverse).length = n + 1 - piso := by
        rw [List.length_reverse, List.length_map, List.length_drop, List.length_take]
        omega
      rw [if_neg hbaixo, hget, hb, hlista, List.map_append, List.reverse_append]
      simp only [List.map_cons, List.map_nil, List.reverse_cons, List.reverse_nil, List.nil_append,
        List.cons_append]
      rw [varre]
      by_cases hq : quorum ≤ (acrescenta L[n + 1].producer vistos).length
      · rw [if_pos hq, if_pos hq]
        obtain ⟨d, hd⟩ : ∃ d, n + 1 = piso + d := ⟨n + 1 - piso, by omega⟩
        dsimp only
        rw [htam, hd, Nat.add_sub_cancel_left]
        have hz : (n : ℤ) + 1 = piso + d := by exact_mod_cast hd
        exact eq_sub_of_add_eq hz
      · rw [if_neg hq, if_neg hq]
        exact ih _ (by omega)

/-- The lowest height the walk looks at. -/
def piso (c : Blockchain) : ℕ := max c.tailStart 1

theorem tailStart_le_piso (c : Blockchain) : c.tailStart ≤ c.piso := Nat.le_max_left _ _

theorem um_le_piso (c : Blockchain) : 1 ≤ c.piso := Nat.le_max_right _ _

/-- The producers in the window, from the newest. -/
def produtoresNaJanela (L : List Block) (c : Blockchain) : List String :=
  ((L.drop c.piso).map (·.producer)).reverse

theorem length_produtoresNaJanela (L : List Block) (c : Blockchain) :
    (produtoresNaJanela L c).length = L.length - c.piso := by
  unfold produtoresNaJanela
  rw [List.length_reverse, List.length_map, List.length_drop]

/-- The newest producers are those above a height. -/
theorem take_produtoresNaJanela (L : List Block) (c : Blockchain) {m : ℕ}
    (hm : m ≤ L.length - c.piso) :
    ((produtoresNaJanela L c).take (L.length - c.piso - m)).toFinset.card =
      produtoresAcima L (c.piso + m - 1) := by
  have hp := c.um_le_piso
  have hcorte : (L.drop c.piso).length - (L.length - c.piso - m) = m := by
    rw [List.length_drop]
    omega
  unfold produtoresNaJanela produtoresAcima
  rw [List.take_reverse, List.length_map, hcorte, List.toFinset_reverse, ← List.map_drop,
    List.drop_drop, show c.piso + m - 1 + 1 = c.piso + m by omega]

theorem Registro.finalizedHeight (h : Registro L c) {vs : List Validator}
    (hvs : c.state.validators = .ok vs) (hmin : Config.finalityMinValidators ≤ vs.length) :
    c.finalizedHeight = .ok
      (match varre (2 * vs.length / 3 + 1) [] (produtoresNaJanela L c) with
      | none => -1
      | some m => (c.piso : ℤ) + m - 1) := by
  have hpos : 0 < L.length := lt_of_le_of_lt (Nat.zero_le _) h.dentro
  have hheight := h.height
  have hfim : c.height.toNat + 1 = L.length := by omega
  have hler : ler c.state.validators = .ok vs := by rw [hvs]; rfl
  unfold Blockchain.finalizedHeight
  refine except_bind_eq_ok.mpr ⟨vs, hler, ?_⟩
  dsimp only
  rw [if_neg (not_lt.mpr hmin), h.procuraFinal [] (by omega), hfim, List.take_length]
  rfl

theorem vistos_nenhum : Vistos [] [] := ⟨List.nodup_nil, fun _ => Iff.rfl⟩

theorem validators_of_final {f : ℕ} (hf : c.finalizedHeight = .ok (f : ℤ)) :
    ∃ vs, c.state.validators = .ok vs ∧ Config.finalityMinValidators ≤ vs.length := by
  unfold Blockchain.finalizedHeight at hf
  obtain ⟨vs, hvs, hf₁⟩ := except_bind_eq_ok.mp hf
  refine ⟨vs, ?_, ?_⟩
  · unfold ler at hvs
    cases hv : c.state.validators with
    | ok vs' =>
      rw [hv] at hvs
      cases hvs
      rfl
    | error e =>
      rw [hv] at hvs
      cases hvs
  · by_contra hpoucos
    dsimp only at hf₁
    rw [if_pos (not_le.mp hpoucos)] at hf₁
    cases hf₁

/-- A final height has a quorum above it, in the window. -/
theorem Registro.quorum_of_final (h : Registro L c) {f : ℕ}
    (hf : c.finalizedHeight = .ok (f : ℤ)) : TemQuorum L c f ∧ c.tailStart ≤ f + 1 := by
  obtain ⟨vs, hvs, hmin⟩ := validators_of_final hf
  have hp := c.um_le_piso
  have hts := c.tailStart_le_piso
  rw [h.finalizedHeight hvs hmin] at hf
  have hf₁ := Except.ok.inj hf
  cases hm : varre (2 * vs.length / 3 + 1) [] (produtoresNaJanela L c) with
  | none =>
    rw [hm] at hf₁
    dsimp only at hf₁
    omega
  | some m =>
    rw [hm] at hf₁
    dsimp only at hf₁
    obtain ⟨hlt, hq⟩ := varre_eq_some vistos_nenhum hm
    rw [length_produtoresNaJanela] at hlt hq
    rw [List.nil_append, take_produtoresNaJanela L c hlt.le] at hq
    have hfm : c.piso + m - 1 = f := by omega
    exact ⟨⟨vs, hvs, hmin, hfm ▸ hq⟩, by omega⟩

theorem produtoresAcima_pos {f : ℕ} (h : 0 < produtoresAcima L f) : f + 1 < L.length := by
  by_contra hge
  unfold produtoresAcima at h
  rw [List.drop_eq_nil_of_le (not_lt.mp hge)] at h
  exact absurd h (lt_irrefl 0)

theorem TemQuorum.dentro {f : ℕ} (h : TemQuorum L c f) : f + 1 < L.length := by
  obtain ⟨vs, -, -, hq⟩ := h
  exact produtoresAcima_pos (lt_of_lt_of_le (Nat.succ_pos _) hq)

/-- A quorum in the window makes at least its height final. -/
theorem Registro.final_of_quorum (h : Registro L c) {f : ℕ} (hq : TemQuorum L c f)
    (hts : c.tailStart ≤ f + 1) : ∃ fz, c.finalizedHeight = .ok fz ∧ (f : ℤ) ≤ fz := by
  have hlen := hq.dentro
  obtain ⟨vs, hvs, hmin, hq⟩ := hq
  refine ⟨_, h.finalizedHeight hvs hmin, ?_⟩
  have hpiso : c.piso ≤ f + 1 := Nat.max_le.mpr ⟨hts, Nat.succ_le_succ (Nat.zero_le f)⟩
  have hp := c.um_le_piso
  have htake := take_produtoresNaJanela L c (m := f + 1 - c.piso) (by omega)
  rw [show c.piso + (f + 1 - c.piso) - 1 = f by omega] at htake
  rw [← htake] at hq
  obtain ⟨m, hm, hle⟩ := varre_of_quorum (2 * vs.length / 3 + 1)
    (l := produtoresNaJanela L c) vistos_nenhum (Nat.succ_pos _) (by rwa [List.nil_append])
  rw [length_produtoresNaJanela] at hle
  rw [hm]
  dsimp only
  omega

/-! ## One call -/

theorem evictar_janela (amb : Ambiente) {n : ℕ} {c : Blockchain} (hn : n ≤ c.tail.length) :
    Runs (evictar amb n) c
      (fun _ c' => c'.tail = c.tail.drop n ∧ c'.tailStart = c.tailStart + n) fun _ _ => True := by
  induction n generalizing c with
  | zero => exact Runs.pure_intro ⟨rfl, rfl⟩
  | succ n ih =>
    cases ht : c.tail with
    | nil => simp [ht] at hn
    | cons saindo resto =>
      rw [ht, List.length_cons] at hn
      refine Runs.bind ?_
      unfold evictOldest
      refine Runs.get_bind ?_
      rw [ht]
      dsimp only
      cases c.novaAncora amb saindo with
      | error e => exact Runs.throw_intro trivial
      | ok base =>
        refine Runs.modify_intro (g := fun _ => _) ?_
        refine (ih (c := { c with
          tail := resto, baseState := some base, hashes := c.hashes.erase saindo.height
          tailStart := c.tailStart + 1 }) (Nat.le_of_succ_le_succ hn)).mono ?_ fun _ _ _ => trivial
        rintro _ c' ⟨h1, h2⟩
        exact ⟨h1, by rw [h2]; exact Nat.add_right_comm _ _ _⟩

/-- Moving the window keeps the list of blocks. -/
theorem Registro.slide (h : Registro L c) (hs : slideTail amb c = .ok () c') :
    Registro L c' ∧ c.tailStart ≤ c'.tailStart := by
  have hlen : c.tail.length = L.length - c.tailStart := by rw [h.tail, List.length_drop]
  have hd := h.dentro
  have hex : c.excesso < c.tail.length := by
    have : 0 < limiteJanela := by decide
    unfold excesso
    omega
  unfold slideTail at hs
  rw [get_bind_run] at hs
  by_cases hst : c.store.isSome
  · rw [if_pos hst] at hs
    obtain ⟨h1, h2⟩ := (evictar_janela amb hex.le).ok hs
    refine ⟨⟨?_, ?_, h.encadeada⟩, ?_⟩
    · rw [h1, h2, h.tail, List.drop_drop]
    · rw [h2]
      omega
    · rw [h2]
      exact Nat.le_add_right _ _
  · rw [if_neg hst] at hs
    obtain ⟨-, rfl⟩ := pure_eq_ok.mp hs
    exact ⟨h, le_rfl⟩

theorem Registro.soDisco (h : Registro L c) (hd : SoDisco c c') : Registro L c' := by
  obtain ⟨st, rfl⟩ := hd
  exact ⟨h.tail, h.dentro, h.encadeada⟩

theorem Registro.aceita (h : Registro L c) {now : ℤ} {block : Block}
    (hrun : addBlock amb block now c = .ok () c') :
    Registro (L ++ [block]) c' ∧ c.tailStart ≤ c'.tailStart := by
  obtain ⟨recibos, sim, ha, hg⟩ := addBlock_ok hrun
  obtain ⟨-, u, hu, helo⟩ := conferirBloco_cabeca ha.conferido
  obtain ⟨c₁, ⟨st, rfl⟩, hslide⟩ := gravarBloco_ok hg
  rw [h.head] at hu
  have hreg : Registro (L ++ [block])
      ((⟨c.receipts, c.logIndex, c.internalIndex, c.tail, c.tailStart, c.baseState, c.state,
        c.hashes, c.hashIndex, c.txIndex, c.addressTxIndex, c.blocksWithTxs,
        c.expectedGenesisHash, st, c.loading, c.producerKeys⟩ : Blockchain).aceitar block sim
          recibos) := by
    refine ⟨?_, ?_, h.encadeada.append_singleton hu helo⟩
    · rw [aceitar_tail, aceitar_tailStart, List.drop_append_of_le_length h.dentro.le]
      exact congrArg (· ++ [block]) h.tail
    · rw [aceitar_tailStart, List.length_append]
      exact Nat.lt_add_right 1 h.dentro
  obtain ⟨h1, h2⟩ := hreg.slide hslide
  exact ⟨h1, by rwa [aceitar_tailStart] at h2⟩

/-- Blocks accepted one by one on a chain without a disk are linked to its head. -/
theorem elos_of_addBlocks {now : ℤ} {novos : List Block} {u : Block} (hst : c.store = none)
    (hu : c.head = some u) (h : addBlocks amb now novos c = .ok () c') :
    (u :: novos).IsChain Elo := by
  induction novos generalizing c u with
  | nil => exact List.isChain_singleton u
  | cons b novos ih =>
    obtain ⟨_, c₁, hadd, hresto⟩ := bind_eq_ok.mp h
    obtain ⟨recibos, sim, ha, rfl⟩ := addBlock_semDisco hst hadd
    obtain ⟨-, u', hu', helo⟩ := conferirBloco_cabeca ha.conferido
    obtain rfl : u = u' := Option.some.inj (hu.symm.trans hu')
    refine List.isChain_cons_cons.mpr ⟨helo, ih ?_ (aceitar_head b sim recibos) hresto⟩
    rw [aceitar_store, hst]

/-- What a replacement needs: the fork in the window, not below the final height,
and blocks linked to the one at the fork. -/
theorem Registro.substitui (h : Registro L c) {common now : ℤ} {novos : List Block}
    {cand : Blockchain} (hsub : Substitui amb c common novos now cand) :
    c.tailStart ≤ common.toNat ∧ common.toNat < L.length ∧
      Encadeada (L.take (common.toNat + 1) ++ novos) := by
  obtain ⟨c₀, hc₀, hadd⟩ := experimentar_eq_ok hsub.aceitos
  have hheight := h.height
  have hpos := hsub.positivo
  have hdentro := hsub.dentro
  unfold candidato at hc₀
  obtain ⟨s, -, hc₁⟩ := except_bind_eq_ok.mp hc₀
  cases hb : c.getBlock common.toNat with
  | none =>
    rw [hb] at hc₁
    cases hc₁
  | some b =>
    rw [hb] at hc₁
    have hts : c.tailStart ≤ common.toNat := by
      by_contra hlt
      unfold Blockchain.getBlock at hb
      rw [if_pos (by omega)] at hb
      cases hb
    have hlt : common.toNat < L.length := by omega
    cases hc₁
    have helos := elos_of_addBlocks (u := b) rfl rfl hadd
    rw [h.getBlock hts hlt] at hb
    refine ⟨hts, hlt, ?_, ?_⟩
    · intro g hg
      refine h.encadeada.genese g ?_
      cases L with
      | nil => simp at hlt
      | cons a as => exact hg
    · refine List.isChain_append.mpr ⟨h.encadeada.elos.take _, ?_, ?_⟩
      · cases novos with
        | nil => exact List.isChain_nil
        | cons a as => exact (List.isChain_cons_cons.mp helos).2
      · intro x hx y hy
        rw [List.getLast?_take, if_neg (Nat.succ_ne_zero _), Nat.add_sub_cancel, hb] at hx
        cases hx
        cases novos with
        | nil => cases hy
        | cons a as =>
          cases hy
          exact (List.isChain_cons_cons.mp helos).1

theorem final_le_of_pode {common : ℤ} (h : c.podeReorganizar common = .ok ()) :
    ∃ fz, c.finalizedHeight = .ok fz ∧ fz ≤ common := by
  unfold podeReorganizar at h
  obtain ⟨fz, hfz, h₁⟩ := except_bind_eq_ok.mp h
  obtain ⟨_, hle, -⟩ := except_bind_eq_ok.mp h₁
  exact ⟨fz, hfz, not_lt.mp (falharSe_eq_ok.mp hle)⟩

/-- The blocks of the chain after a reorganisation that returned: kept up to the
fork and continued by the new ones when it was adopted; what the window still
holds when it failed. -/
def registra (L : List Block) (common : ℤ) (novos : List Block) :
    EStateM.Result Interrupcao Blockchain Reorg → Option (List Block × Blockchain)
  | .ok (.adotou _) c' => some (L.take (common.toNat + 1) ++ novos, c')
  | .ok .manteve c' => some (L, c')
  | .error (.erro _) c' => some (L.take (c'.tailStart + c'.tail.length), c')
  | .error (.aborta _) _ => none

/-- The step keeps the blocks up to a height and does not move the window back. -/
structure Guarda (f : ℕ) (L : List Block) (c : Blockchain) (L' : List Block) (c' : Blockchain) :
    Prop where
  registro : Registro L' c'
  janela : c.tailStart ≤ c'.tailStart
  blocos : L'.take (f + 1) = L.take (f + 1)

theorem Registro.guarda_mesmo (h : Registro L c) (f : ℕ) : Guarda f L c L c :=
  ⟨h, le_rfl, rfl⟩

/-- No reorganisation reaches the height: it is the genesis, or below the window,
or has a quorum above it. -/
def Firme (L : List Block) (c : Blockchain) (f : ℕ) : Prop :=
  f = 0 ∨ f + 1 < c.tailStart ∨ TemQuorum L c f

theorem Firme.dentro {f : ℕ} (hf : Firme L c f) (h : Registro L c) : f + 1 ≤ L.length := by
  have hd := h.dentro
  rcases hf with rfl | hbaixo | hq
  · omega
  · omega
  · exact hq.dentro.le

theorem Registro.le_common (h : Registro L c) {f : ℕ} (hf : Firme L c f) {common now : ℤ}
    {novos : List Block} {cand : Blockchain} (hsub : Substitui amb c common novos now cand) :
    f ≤ common.toNat := by
  have hpos := hsub.positivo
  obtain ⟨hts, -, -⟩ := h.substitui hsub
  obtain ⟨fz, hfz, hle⟩ := final_le_of_pode hsub.permitido
  by_cases hbaixo : f + 1 < c.tailStart
  · omega
  · rcases hf with rfl | hb | hq
    · exact Nat.zero_le _
    · exact absurd hb hbaixo
    · obtain ⟨fz', hfz', hle'⟩ := h.final_of_quorum hq (not_lt.mp hbaixo)
      obtain rfl : fz = fz' := Except.ok.inj (hfz.symm.trans hfz')
      omega

theorem take_take_append (L novos : List Block) {f k : ℕ} (hf : f ≤ k) (hk : k < L.length) :
    (L.take (k + 1) ++ novos).take (f + 1) = L.take (f + 1) := by
  rw [List.take_append_of_le_length (by rw [List.length_take]; omega), List.take_take,
    min_eq_left (by omega)]

/-- A reorganisation never touches the blocks below a firm height. -/
theorem Registro.reorg (h : Registro L c) {f : ℕ} (hf : Firme L c f) {common now : ℤ}
    {novos : List Block} (hp : registra L common novos (Blockchain.reorg amb common novos now c) =
      some (L', c')) : Guarda f L c L' c' := by
  have hlen : c.tailStart + c.tail.length = L.length := by
    rw [h.tail, List.length_drop]
    have := h.dentro
    omega
  rcases reorg_cases amb c common novos now with ⟨cand, hsub, hrun⟩ | hrun | ⟨e, hrun⟩
  · have hle := h.le_common hf hsub
    obtain ⟨hts, hlt, henc⟩ := h.substitui hsub
    have hcorte : c.tail.take (common.toNat + 1 - c.tailStart) =
        (L.take (common.toNat + 1)).drop c.tailStart := by
      rw [h.tail, List.drop_take]
    rw [hrun] at hp
    cases hr : substituir amb common.toNat novos cand c with
    | ok r c₂ =>
      obtain ⟨rfl, c₁, ⟨st, rfl⟩, hslide⟩ := substituir_ok hr
      rw [hr] at hp
      cases hp
      have hreg : Registro (L.take (common.toNat + 1) ++ novos)
          (adotar { c with tail := c.tail.take (common.toNat + 1 - c.tailStart), store := st }
            common.toNat (c.tail.drop (common.toNat + 1 - c.tailStart)) novos cand) := by
        refine ⟨?_, ?_, henc⟩
        · change c.tail.take (common.toNat + 1 - c.tailStart) ++ novos =
            (L.take (common.toNat + 1) ++ novos).drop c.tailStart
          rw [hcorte, List.drop_append_of_le_length]
          rw [List.length_take]
          omega
        · change c.tailStart < (L.take (common.toNat + 1) ++ novos).length
          rw [List.length_append, List.length_take]
          omega
      obtain ⟨h1, h2⟩ := hreg.slide hslide
      exact ⟨h1, h2, take_take_append L novos hle hlt⟩
    | error e c₂ =>
      rw [hr] at hp
      cases e with
      | aborta motivo => cases hp
      | erro msg =>
        cases hp
        obtain ⟨-, st, rfl⟩ := substituir_erro hr
        have hresto : c.tailStart + (c.tail.take (common.toNat + 1 - c.tailStart)).length =
            common.toNat + 1 := by
          rw [List.length_take]
          omega
        have hL : L.take (c.tailStart + (c.tail.take (common.toNat + 1 - c.tailStart)).length) =
            L.take (common.toNat + 1) := by
          rw [hresto]
        have hguarda : Guarda f L c (L.take (common.toNat + 1))
            { c with tail := c.tail.take (common.toNat + 1 - c.tailStart), store := st } := by
          refine ⟨⟨hcorte, ?_, h.encadeada.take _⟩, le_rfl, ?_⟩
          · change c.tailStart < (L.take (common.toNat + 1)).length
            rw [List.length_take]
            omega
          · rw [List.take_take, min_eq_left (by omega)]
        exact hL.symm ▸ hguarda
  · rw [hrun] at hp
    cases hp
    exact h.guarda_mesmo f
  · rw [hrun] at hp
    cases e with
    | aborta motivo => cases hp
    | erro msg =>
      cases hp
      rw [hlen, List.take_length]
      exact h.guarda_mesmo f

/-! ## Runs -/

/-- The calls of a run on a chain that has its genesis. -/
inductive ChamadaBft where
  | addBlock (block : Block) (now : ℤ)
  | reorg (common : ℤ) (novos : List Block) (now : ℤ)
  | replaceChain (blocos : List Block) (now : ℤ)

/-- The fork that `replaceChain` finds. -/
def comumCom (c : Blockchain) (blocos : List Block) : ℤ :=
  c.procuraComum blocos ((min c.height ((blocos.length : ℤ) - 1)).toNat + 1)

/-- The blocks of the chain after an offered block. -/
def registraBloco (L : List Block) (block : Block) :
    EStateM.Result Interrupcao Blockchain Unit → Option (List Block × Blockchain)
  | .ok _ c' => some (L ++ [block], c')
  | .error (.erro _) c' => some (L, c')
  | .error (.aborta _) _ => none

/-- The chain after a call that returned, with the list of all its blocks. -/
def ChamadaBft.passo (amb : Ambiente) (L : List Block) (c : Blockchain) :
    ChamadaBft → Option (List Block × Blockchain)
  | addBlock block now => registraBloco L block (Blockchain.addBlock amb block now c)
  | reorg common novos now => registra L common novos (Blockchain.reorg amb common novos now c)
  | replaceChain blocos now =>
    registra L (c.comumCom blocos) (blocos.drop (c.comumCom blocos + 1).toNat)
      (Blockchain.replaceChain amb blocos now c)

/-- The chains that follow the adoption of a genesis. -/
inductive Historico (amb : Ambiente) : List Block → Blockchain → Prop
  | genese {g : Block} {c c' : Blockchain} (h : adoptGenesis amb g c = .ok () c') :
      Historico amb [g] c'
  | passo {L L' : List Block} {c c' : Blockchain} (ch : ChamadaBft) (h : Historico amb L c)
      (hp : ch.passo amb L c = some (L', c')) : Historico amb L' c'

/-- The call takes away no quorum, except above heights that left the window. -/
def MantemQuorum (x y : List Block × Blockchain) : Prop :=
  ∀ f, TemQuorum x.1 x.2 f → Firme y.1 y.2 f

def Passo (amb : Ambiente) (x y : List Block × Blockchain) : Prop :=
  ∃ ch : ChamadaBft, ch.passo amb x.1 x.2 = some y

/-- A call that keeps every quorum. -/
def PassoFiel (amb : Ambiente) (x y : List Block × Blockchain) : Prop :=
  Passo amb x y ∧ MantemQuorum x y

theorem replaceChain_cases (amb : Ambiente) (h : Registro L c) (blocos : List Block) (now : ℤ) :
    Blockchain.replaceChain amb blocos now c =
        Blockchain.reorg amb (c.comumCom blocos) (blocos.drop (c.comumCom blocos + 1).toNat) now c ∨
      Blockchain.replaceChain amb blocos now c = .ok .manteve c ∨
      ∃ msg, Blockchain.replaceChain amb blocos now c = .error (.erro msg) c := by
  unfold Blockchain.replaceChain
  rw [get_bind_run]
  cases blocos with
  | nil => exact .inr (.inl rfl)
  | cons genese resto =>
    have hgen : ¬ c.hasGenesis = false := by
      have hd := h.dentro
      unfold hasGenesis
      rw [h.tail]
      cases hl : L.drop c.tailStart with
      | nil =>
        have := List.drop_eq_nil_iff.mp hl
        omega
      | cons x xs => simp
    have hcomum : c.procuraComum (genese :: resto) ((min c.height resto.length).toNat + 1) =
        c.comumCom (genese :: resto) := by
      unfold comumCom
      rw [List.length_cons]
      congr 4
      omega
    dsimp only
    rw [if_neg hgen]
    by_cases hcurto : (resto.length : ℤ) ≤ c.height
    · rw [if_pos hcurto]
      exact .inr (.inl rfl)
    · rw [if_neg hcurto]
      by_cases hoff : c.hashAt 0 ≠ some genese.hash
      · have hno : (conferir (falharSe (c.hashAt 0 ≠ some genese.hash)
            "gênese divergente: a cadeia recebida pertence a outra rede") : Cadeia Unit) c =
            .error (.erro "gênese divergente: a cadeia recebida pertence a outra rede") c :=
          conferir_eq_error.mpr ⟨⟨_, if_pos hoff, rfl⟩, rfl⟩
        exact .inr (.inr ⟨_, bind_run_error hno _⟩)
      · have hok : (conferir (falharSe (c.hashAt 0 ≠ some genese.hash)
            "gênese divergente: a cadeia recebida pertence a outra rede") : Cadeia Unit) c =
            .ok () c := conferir_eq_ok.mpr ⟨falharSe_eq_ok.mpr hoff, rfl⟩
        rw [hcomum]
        exact .inl (bind_run_ok hok _)

/-- No call changes a block at or below a firm height. -/
theorem Registro.passo (h : Registro L c) {f : ℕ} (hf : Firme L c f) {ch : ChamadaBft}
    (hp : ch.passo amb L c = some (L', c')) : Guarda f L c L' c' := by
  have hfl := hf.dentro h
  have hlen : c.tailStart + c.tail.length = L.length := by
    rw [h.tail, List.length_drop]
    have := h.dentro
    omega
  cases ch with
  | addBlock block now =>
    change registraBloco L block (Blockchain.addBlock amb block now c) = _ at hp
    cases hr : Blockchain.addBlock amb block now c with
    | ok u c₁ =>
      rw [hr] at hp
      cases hp
      obtain ⟨h1, h2⟩ := h.aceita hr
      exact ⟨h1, h2, List.take_append_of_le_length hfl⟩
    | error e c₁ =>
      rw [hr] at hp
      cases e with
      | aborta motivo => cases hp
      | erro msg =>
        cases hp
        have hd := addBlock_erro hr ⟨msg, rfl⟩
        have hts : c'.tailStart = c.tailStart := by
          obtain ⟨st, rfl⟩ := hd
          rfl
        exact ⟨h.soDisco hd, hts.ge, rfl⟩
  | reorg common novos now => exact h.reorg hf hp
  | replaceChain blocos now =>
    change registra L (c.comumCom blocos) (blocos.drop (c.comumCom blocos + 1).toNat)
      (Blockchain.replaceChain amb blocos now c) = _ at hp
    rcases replaceChain_cases amb h blocos now with hrun | hrun | ⟨msg, hrun⟩
    · rw [hrun] at hp
      exact h.reorg hf hp
    · rw [hrun] at hp
      cases hp
      exact h.guarda_mesmo f
    · rw [hrun] at hp
      change some (L.take (c.tailStart + c.tail.length), c) = some (L', c') at hp
      rw [hlen, List.take_length] at hp
      cases hp
      exact h.guarda_mesmo f

end

section

variable {amb : Ambiente} {L L' : List Block} {c c' : Blockchain}

/-- A run of calls that keep every quorum keeps a firm height firm, and the blocks
up to it. -/
theorem Registro.corrida (h : Registro L c) {f : ℕ} (hf : Firme L c f)
    (hrun : Relation.ReflTransGen (PassoFiel amb) (L, c) (L', c')) :
    Guarda f L c L' c' ∧ Firme L' c' f := by
  generalize hy : (L', c') = y at hrun
  induction hrun generalizing L' c' with
  | refl =>
    cases hy
    exact ⟨h.guarda_mesmo f, hf⟩
  | tail hxy hpasso ih =>
    rename_i x z
    subst hy
    obtain ⟨L₁, c₁⟩ := x
    obtain ⟨hg, hfirme⟩ := ih rfl
    obtain ⟨⟨ch, hp⟩, hmantem⟩ := hpasso
    have hg' := hg.registro.passo hfirme hp
    refine ⟨⟨hg'.registro, hg.janela.trans hg'.janela, hg'.blocos.trans hg.blocos⟩, ?_⟩
    rcases hfirme with hz | hbaixo | hq
    · exact .inl hz
    · exact .inr (.inl (hbaixo.trans_le hg'.janela))
    · exact hmantem f hq

theorem registro_of_historico (h : Historico amb L c) : Registro L c := by
  induction h with
  | genese h =>
    rename_i g c₀ c₁
    unfold adoptGenesis at h
    rw [get_bind_run] at h
    obtain ⟨estado, t, hconf, h₁⟩ := bind_eq_ok.mp h
    obtain ⟨hconf, rfl⟩ := conferir_eq_ok.mp hconf
    rw [modify_bind_run] at h₁
    have hd := (noDisco_runs _ _ _).ok h₁
    unfold conferirGenese at hconf
    obtain ⟨_, -, hconf⟩ := except_bind_eq_ok.mp hconf
    obtain ⟨_, halt, -⟩ := except_bind_eq_ok.mp hconf
    have halt := not_not.mp (falharSe_eq_ok.mp halt)
    have hreg : Registro [g] (t.comGenese g estado) := by
      refine ⟨rfl, Nat.one_pos, ?_, List.isChain_singleton g⟩
      rintro b ⟨⟩
      exact halt
    exact hreg.soDisco hd
  | passo ch h hp ih => exact (ih.passo (.inl rfl) hp).registro

theorem Coerente.registro {g : Block} {bs : List Block} (h : Coerente amb g bs c) :
    Registro (g :: bs) c := ⟨h.janela.tail, h.janela.dentro, h.historia.encadeada⟩

theorem Historico.addBlocks {now : ℤ} {bs : List Block} (h : Historico amb L c)
    (hadd : Blockchain.addBlocks amb now bs c = .ok () c') : Historico amb (L ++ bs) c' := by
  induction bs generalizing L c with
  | nil =>
    obtain ⟨-, rfl⟩ := pure_eq_ok.mp hadd
    rwa [List.append_nil]
  | cons b bs ih =>
    obtain ⟨_, c₁, hb, hresto⟩ := bind_eq_ok.mp hadd
    have hp : (ChamadaBft.addBlock b now).passo amb L c = some (L ++ [b], c₁) := by
      change registraBloco L b (Blockchain.addBlock amb b now c) = _
      rw [hb]
      rfl
    rw [List.append_cons]
    exact ih (.passo _ h hp) hresto

theorem historico_trio : Historico ambienteIdeal [geneseTrio] cadeiaTrio :=
  .genese (c := nova none none false) (adoptGenesis_geneseCom rfl rfl estadoGenese_trio)

/-- The final height of a chain of three validators whose window starts at the genesis. -/
theorem Coerente.final_trio {g : Block} {bs : List Block} {vs : List Validator}
    {produtores : List String} (h : Coerente amb g bs c) (hts : c.tailStart = 0)
    (hvs : c.state.validators = .ok vs) (htres : vs.length = 3)
    (hprod : bs.map (·.producer) = produtores) :
    c.finalizedHeight = .ok (match varre 3 [] produtores.reverse with
      | none => -1
      | some m => (m : ℤ)) := by
  have hpiso : c.piso = 1 := by
    unfold piso
    rw [hts]
    rfl
  have hlista : produtoresNaJanela (g :: bs) c = produtores.reverse := by
    unfold produtoresNaJanela
    rw [hpiso, List.drop_succ_cons, List.drop_zero, hprod]
  rw [h.registro.finalizedHeight hvs (by rw [htres]; decide), htres, hlista, hpiso]
  cases varre 3 [] produtores.reverse with
  | none => rfl
  | some m =>
    refine congrArg Except.ok ?_
    change ((1 : ℕ) : ℤ) + m - 1 = m
    omega

end

/-- More blocks under as many validators keep every quorum. -/
theorem TemQuorum.append {L novos : List Block} {c c' : Blockchain} {f : ℕ}
    (h : TemQuorum L c f) {n : ℕ} (hn : ∀ vs, c.state.validators = .ok vs → vs.length = n)
    (hn' : ∃ vs, c'.state.validators = .ok vs ∧ vs.length = n) : TemQuorum (L ++ novos) c' f := by
  have hlen := h.dentro
  obtain ⟨vs, hv, hmin, hq⟩ := h
  obtain ⟨vs', hv', hl⟩ := hn'
  rw [hn vs hv] at hmin hq
  refine ⟨vs', hv', by rw [hl]; exact hmin, ?_⟩
  rw [hl]
  refine hq.trans ?_
  unfold produtoresAcima
  rw [List.drop_append_of_le_length hlen.le, List.map_append, List.toFinset_append]
  exact Finset.card_le_card Finset.subset_union_left

end Eav7.Blockchain
