import Mathlib.Data.List.Chain
import Eav7.Indices

/-!
# The history behind a chain

A chain in memory stands for the list of all its blocks from the genesis on,
also of those that left the window. Accepting a block extends that history by
one; moving the window does not change it.
-/

namespace Eav7.Blockchain

open Base

/-! ## Replaying blocks -/

/-- A block follows another one. -/
def Elo (a b : Block) : Prop := b.height = a.height + 1 ∧ b.previousHash = a.hash

/-- Blocks from a genesis on, each following the one before it. -/
structure Encadeada (bs : List Block) : Prop where
  genese : ∀ g ∈ bs.head?, g.height = 0
  elos : bs.IsChain Elo

/-- The state that a history leads to. -/
def replay (amb : Ambiente) : List Block → Falha State
  | [] => falhar "cadeia sem bloco gênese"
  | genese :: bs => do
    let s ← estadoGenese amb.cripto genese
    reaplicar amb s bs

section

variable {amb : Ambiente}

theorem reaplicar_append (s : State) (as bs : List Block) :
    reaplicar amb s (as ++ bs) = (reaplicar amb s as >>= fun s => reaplicar amb s bs) := by
  induction as generalizing s with
  | nil => rfl
  | cons a as ih =>
    rw [List.cons_append, reaplicar, reaplicar]
    cases estadoDepois amb s a with
    | error e => rfl
    | ok s' => exact ih s'

theorem replay_append {as : List Block} (has : as ≠ []) (bs : List Block) :
    replay amb (as ++ bs) = (replay amb as >>= fun s => reaplicar amb s bs) := by
  cases as with
  | nil => exact absurd rfl has
  | cons g as =>
    rw [List.cons_append, replay, replay]
    cases estadoGenese amb.cripto g with
    | error e => rfl
    | ok s => exact reaplicar_append s as bs

theorem reaplicar_singleton (s : State) (b : Block) :
    reaplicar amb s [b] = estadoDepois amb s b := by
  rw [reaplicar]
  cases estadoDepois amb s b <;> rfl

/-- A history that replays does so up to every earlier block. -/
theorem replay_take {blocos : List Block} {s : State} (h : replay amb blocos = .ok s) {n : ℕ}
    (hn : 0 < n) : ∃ t, replay amb (blocos.take n) = .ok t ∧
      reaplicar amb t (blocos.drop n) = .ok s := by
  have hne : blocos.take n ≠ [] := by
    intro hc
    rcases List.take_eq_nil_iff.mp hc with hz | hz
    · omega
    · rw [hz] at h
      cases h
  rw [← List.take_append_drop n blocos, replay_append hne] at h
  exact except_bind_eq_ok.mp h

end

theorem Encadeada.ascendente {bs : List Block} (h : Encadeada bs) : Ascendente bs := by
  have hlt : bs.IsChain fun a b => a.height < b.height :=
    h.elos.imp fun a b hab => by have := hab.1; omega
  have htrans : IsTrans Block fun a b => a.height < b.height := ⟨fun _ _ _ => lt_trans⟩
  exact List.isChain_iff_pairwise.mp hlt

theorem Encadeada.append_singleton {bs : List Block} (h : Encadeada bs) {b u : Block}
    (hu : bs.getLast? = some u) (hub : Elo u b) : Encadeada (bs ++ [b]) := by
  refine ⟨?_, ?_⟩
  · intro g hg
    cases bs with
    | nil => cases hu
    | cons a as => exact h.genese g hg
  · refine List.isChain_append.mpr ⟨h.elos, List.isChain_singleton b, ?_⟩
    intro x hx y hy
    rw [hu] at hx
    cases hx
    cases hy
    exact hub

theorem Encadeada.altura {bs : List Block} (h : Encadeada bs) {i : ℕ} {b : Block}
    (hb : bs[i]? = some b) : b.height = i := by
  induction i generalizing b with
  | zero => exact h.genese b (by rw [List.head?_eq_getElem?]; exact hb)
  | succ i ih =>
    obtain ⟨hi, -⟩ := List.getElem?_eq_some_iff.mp hb
    have ha : bs[i]? = some bs[i] := List.getElem?_eq_getElem (by omega)
    have helo : Elo bs[i] bs[i + 1] := h.elos.getElem i hi
    have hbi : bs[i + 1] = b := by
      rw [List.getElem?_eq_getElem hi] at hb
      exact Option.some.inj hb
    rw [hbi] at helo
    rw [helo.1, ih ha]

theorem Encadeada.take {bs : List Block} (h : Encadeada bs) (n : ℕ) : Encadeada (bs.take n) := by
  refine ⟨?_, h.elos.take n⟩
  intro g hg
  refine h.genese g ?_
  cases bs with
  | nil => simp at hg
  | cons a as =>
    cases n with
    | zero => simp at hg
    | succ n => exact hg

/-! ## Accepting one block -/

theorem executar_eq_ok {α : Type} {m : Op α} {s s' : State} {a : α} :
    executar m s = .ok (a, s') ↔ m s = .ok a s' := by
  unfold executar
  cases m s with
  | ok b t => simp
  | error e t => simp

/-- The block passed the checks of the chain and its simulation. -/
structure Aceita (amb : Ambiente) (c : Blockchain) (now : ℤ) (block : Block) (recibos : Recibos)
    (sim : State) : Prop where
  conferido : c.conferirBloco amb block now = .ok ()
  simulado : c.simulate amb block c.state = .ok recibos sim

section

variable {amb : Ambiente} {c : Blockchain}

theorem conferirBloco_cabeca {block : Block} {now : ℤ} (h : c.conferirBloco amb block now = .ok ()) :
    amb.cripto.verifyBlockIntegrityEx block (c.producerKeys.get? block.producer) = .ok () ∧
      ∃ u, c.head = some u ∧ Elo u block := by
  unfold conferirBloco at h
  obtain ⟨_, -, h⟩ := except_bind_eq_ok.mp h
  obtain ⟨_, hint, h⟩ := except_bind_eq_ok.mp h
  obtain ⟨_, hcab, -⟩ := except_bind_eq_ok.mp h
  refine ⟨hint, ?_⟩
  unfold conferirCabeca at hcab
  cases hu : c.head with
  | none =>
    rw [hu] at hcab
    cases hcab
  | some u =>
    rw [hu] at hcab
    obtain ⟨_, halt, hcab⟩ := except_bind_eq_ok.mp hcab
    obtain ⟨_, hprev, -⟩ := except_bind_eq_ok.mp hcab
    exact ⟨u, rfl, not_not.mp (falharSe_eq_ok.mp halt), not_not.mp (falharSe_eq_ok.mp hprev)⟩

theorem hash_of_integrity {cr : Cripto} {block : Block} {chaves : Option (String × String)}
    (h : cr.verifyBlockIntegrityEx block chaves = .ok ()) :
    block.hash = cr.blockHash block.payload := by
  unfold Cripto.verifyBlockIntegrityEx at h
  obtain ⟨_, hcab, -⟩ := except_bind_eq_ok.mp h
  unfold Cripto.verifyBlockHeader at hcab
  obtain ⟨_, -, hcab⟩ := except_bind_eq_ok.mp hcab
  obtain ⟨_, -, hcab⟩ := except_bind_eq_ok.mp hcab
  obtain ⟨_, -, hcab⟩ := except_bind_eq_ok.mp hcab
  obtain ⟨_, -, hcab⟩ := except_bind_eq_ok.mp hcab
  obtain ⟨_, -, hcab⟩ := except_bind_eq_ok.mp hcab
  obtain ⟨_, -, hcab⟩ := except_bind_eq_ok.mp hcab
  exact not_not.mp (falharSe_eq_ok.mp hcab)

/-- A simulated list of transactions applies with the same outcome. -/
theorem aplicarTxs_of_simulateTxs {height blockTs : ℕ} {txs : List Tx} {vistas : List String}
    {s s' : State} {recibos : Recibos}
    (h : c.simulateTxs amb height blockTs vistas txs s = .ok recibos s') :
    aplicarTxs amb height blockTs txs s = .ok () s' := by
  induction txs generalizing vistas s recibos with
  | nil =>
    obtain ⟨-, rfl⟩ := pure_eq_ok.mp h
    rfl
  | cons tx txs ih =>
    rw [simulateTxs] at h
    obtain ⟨_, t, ht, h₁⟩ := bind_eq_ok.mp h
    obtain ⟨-, rfl⟩ := lift_eq_ok.mp ht
    obtain ⟨aplicada, t', htx, h₂⟩ := bind_eq_ok.mp h₁
    obtain ⟨resto, t'', hresto, h₃⟩ := bind_eq_ok.mp h₂
    obtain ⟨-, rfl⟩ := pure_eq_ok.mp h₃
    exact bind_eq_ok.mpr ⟨aplicada, t', htx, ih hresto⟩

theorem applyBlockTo_of_simulate {block : Block} {s s' : State} {recibos : Recibos}
    (h : c.simulate amb block s = .ok recibos s') : applyBlockTo amb block s = .ok () s' := by
  obtain ⟨blockTs, t, habre, h⟩ := bind_eq_ok.mp h
  obtain ⟨rs, t', htxs, h⟩ := bind_eq_ok.mp h
  obtain ⟨u, t'', hfecha, h⟩ := bind_eq_ok.mp h
  obtain ⟨-, rfl⟩ := pure_eq_ok.mp h
  refine bind_eq_ok.mpr ⟨blockTs, t, habre, ?_⟩
  exact bind_eq_ok.mpr ⟨(), t', aplicarTxs_of_simulateTxs htxs, hfecha⟩

theorem estadoDepois_of_simulate {block : Block} {s s' : State} {recibos : Recibos}
    (h : c.simulate amb block s = .ok recibos s') : estadoDepois amb s block = .ok s' := by
  have hap := executar_eq_ok.mpr (applyBlockTo_of_simulate h)
  rw [estadoDepois, hap]
  rfl

/-- A simulation reads nothing of the chain but the ids already used. -/
theorem simulate_congr {c' : Blockchain} (h : c'.txIndex = c.txIndex) (block : Block) :
    c'.simulate amb block = c.simulate amb block := by
  have htxs : ∀ (height blockTs : ℕ) (vistas : List String) (txs : List Tx),
      c'.simulateTxs amb height blockTs vistas txs =
        c.simulateTxs amb height blockTs vistas txs := by
    intro height blockTs vistas txs
    induction txs generalizing vistas with
    | nil => rfl
    | cons tx txs ih =>
      simp only [simulateTxs, conferirTx, h, ih]
  simp only [simulate, htxs]

/-- A simulation rejects an id that the chain or the block already has. -/
theorem ineditas_of_simulateTxs {height blockTs : ℕ} {txs : List Tx} {vistas : List String}
    {s s' : State} {recibos : Recibos}
    (h : c.simulateTxs amb height blockTs vistas txs s = .ok recibos s') :
    ∀ tx ∈ txs, c.txIndex.get? (tx.id.getD "?") = none := by
  induction txs generalizing vistas s s' recibos with
  | nil => simp
  | cons tx txs ih =>
    rw [simulateTxs] at h
    obtain ⟨_, t, ht, h₁⟩ := bind_eq_ok.mp h
    obtain ⟨hconf, rfl⟩ := lift_eq_ok.mp ht
    obtain ⟨aplicada, t', htx, h₂⟩ := bind_eq_ok.mp h₁
    obtain ⟨resto, t'', hresto, -⟩ := bind_eq_ok.mp h₂
    obtain ⟨_, -, hdup⟩ := except_bind_eq_ok.mp hconf
    have hdup := recusar_eq_ok.mp hdup
    rw [not_or, Bool.not_eq_true, OrdMap.contains_eq_false] at hdup
    intro tx' htx'
    rcases List.mem_cons.mp htx' with rfl | htx'
    · exact hdup.2
    · exact ih hresto tx' htx'

theorem Aceita.ineditas {now : ℤ} {block : Block} {recibos : Recibos} {sim : State}
    (h : Aceita amb c now block recibos sim) : ∀ id ∈ idsDe block, c.txIndex.get? id = none := by
  obtain ⟨blockTs, t, -, hsim⟩ := bind_eq_ok.mp h.simulado
  obtain ⟨rs, t', htxs, -⟩ := bind_eq_ok.mp hsim
  intro id hid
  obtain ⟨tx, htx, heq⟩ := List.mem_filterMap.mp hid
  have := ineditas_of_simulateTxs htxs tx htx
  rwa [heq] at this

end

/-! ## The history of a chain -/

/-- The chain stands for `base ++ bs`: its head, its state and its transaction
index cover all of it, its other indices only `bs`. -/
structure Historia (amb : Ambiente) (base bs : List Block) (c : Blockchain) : Prop where
  cabeca : c.head = (base ++ bs).getLast?
  encadeada : Encadeada (base ++ bs)
  estado : replay amb (base ++ bs) = .ok c.state
  txs : IndexaTxs c.txIndex (base ++ bs).tail
  comTxs : c.blocksWithTxs = alturasCom temTxs bs
  enderecos : IndexaEnderecos c.addressTxIndex bs

section

variable {amb : Ambiente} {base bs : List Block} {c : Blockchain}

theorem Historia.nao_vazia (h : Historia amb base bs c) : base ++ bs ≠ [] := by
  intro hc
  have := h.estado
  rw [hc] at this
  cases this

@[simp] theorem aceitar_tail (block : Block) (sim : State) (recibos : Recibos) :
    (c.aceitar block sim recibos).tail = c.tail ++ [block] := rfl

@[simp] theorem aceitar_state (block : Block) (sim : State) (recibos : Recibos) :
    (c.aceitar block sim recibos).state = sim := rfl

@[simp] theorem aceitar_store (block : Block) (sim : State) (recibos : Recibos) :
    (c.aceitar block sim recibos).store = c.store := by
  simp only [aceitar, indexAddressTxs, registrarRecibos]

@[simp] theorem aceitar_loading (block : Block) (sim : State) (recibos : Recibos) :
    (c.aceitar block sim recibos).loading = c.loading := by
  simp only [aceitar, indexAddressTxs, registrarRecibos]

@[simp] theorem aceitar_producerKeys (block : Block) (sim : State) (recibos : Recibos) :
    (c.aceitar block sim recibos).producerKeys = lembraChaves block c.producerKeys := by
  simp only [aceitar, indexAddressTxs, registrarRecibos]

@[simp] theorem aceitar_tailStart (block : Block) (sim : State) (recibos : Recibos) :
    (c.aceitar block sim recibos).tailStart = c.tailStart := by
  simp only [aceitar, indexAddressTxs, registrarRecibos]

@[simp] theorem aceitar_txIndex (block : Block) (sim : State) (recibos : Recibos) :
    (c.aceitar block sim recibos).txIndex =
      indexTxs block.height block.transactions c.txIndex := by
  simp only [aceitar, indexAddressTxs, registrarRecibos]

@[simp] theorem aceitar_head (block : Block) (sim : State) (recibos : Recibos) :
    (c.aceitar block sim recibos).head = some block := by
  simp [head]

theorem Historia.aceita (h : Historia amb base bs c) {now : ℤ} {block : Block} {recibos : Recibos}
    {sim : State} (ha : Aceita amb c now block recibos sim) :
    Historia amb base (bs ++ [block]) (c.aceitar block sim recibos) := by
  obtain ⟨-, u, hu, helo⟩ := conferirBloco_cabeca ha.conferido
  rw [h.cabeca] at hu
  have hasc := h.encadeada.append_singleton hu helo
  have hlt : ∀ b ∈ base ++ bs, b.height < block.height := by
    intro b hb
    exact (List.pairwise_append.mp hasc.ascendente).2.2 b hb block (List.mem_singleton_self block)
  refine ⟨?_, ?_, ?_, ?_, ?_, ?_⟩
  · rw [aceitar_head, ← List.append_assoc, List.getLast?_concat]
  · rw [← List.append_assoc]
    exact hasc
  · rw [← List.append_assoc, replay_append h.nao_vazia, h.estado]
    change reaplicar amb c.state [block] = _
    rw [reaplicar_singleton, estadoDepois_of_simulate ha.simulado]
    rfl
  · rw [← List.append_assoc, List.tail_append_of_ne_nil h.nao_vazia]
    exact h.txs.aceita ha.ineditas
  · rw [alturasCom_append, alturasCom_singleton, ← h.comTxs]
    by_cases hvazio : block.transactions = []
    · simp [aceitar, indexAddressTxs, registrarRecibos, temTxs, hvazio]
    · simp [aceitar, indexAddressTxs, registrarRecibos, temTxs, hvazio]
  · exact h.enderecos.aceita fun b hb => hlt b (List.mem_append_right _ hb)

end
end Eav7.Blockchain
