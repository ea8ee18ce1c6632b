import Eav7.Producer
import Eav7.Bifurcacao
import Eav7.RedeIdeal

/-!
# Two nodes that follow each other

Two honest nodes with chains of one height and different heads. Neither adopts the
chain of the other, because it is not longer, and the gate holds both producers,
because the tips differ: the pair never moves again.
-/

namespace Eav7

open Base

namespace P2p

open Blockchain Follow Producer

section

variable {amb : Ambiente} {a b c : Blockchain}

/-! ## What an honest peer sends -/

theorem rangeAt_length (c : Blockchain) (de limite : ℕ) :
    (c.rangeAt de limite).length ≤ (c.height + 1 - de).toNat := by
  induction limite generalizing de with
  | zero => exact Nat.zero_le _
  | succ limite ih =>
    unfold rangeAt
    cases hb : c.blockAt de with
    | none => exact Nat.zero_le _
    | some b =>
      have hdentro : ¬ (c.height < 0 ∨ c.height.toNat < de) := by
        intro hfora
        rw [blockAt, if_pos hfora] at hb
        cases hb
      have hresto := ih (de + 1)
      rw [List.length_cons]
      omega

theorem blocosDaPagina_chainPage (c : Blockchain) (de : ℕ) :
    blocosDaPagina (chainPage c de) =
      some ((c.rangeAt de Config.maxChainPage).map blocoComSize) := rfl

/-- A download from an honest peer ends at its tip. -/
theorem fetchRange_honesto {cursor : ℕ} {baixados js : List JsonValue}
    (h : fetchRange (honesto c) cursor baixados = .ok js) :
    js.length ≤ baixados.length + (c.height + 1 - cursor).toNat := by
  have hpagina : ∀ de pagina, (honesto c).chain de = .ok pagina → ∀ blocos,
      blocosDaPagina pagina = some blocos → blocos.length ≤ (c.height + 1 - de).toNat := by
    intro de pagina hp blocos hb
    obtain rfl : chainPage c de = pagina := Except.ok.inj hp
    rw [blocosDaPagina_chainPage] at hb
    rw [← Option.some.inj hb, List.length_map]
    exact rangeAt_length c de _
  induction cursor, baixados using fetchRange.induct (honesto c) with
  | case1 cursor baixados e he =>
    cases he
  | case2 cursor baixados pagina hp hb =>
    rw [fetchRange, hp] at h
    dsimp only at h
    rw [hb] at h
    cases h
    exact Nat.le_add_right _ _
  | case3 cursor baixados pagina hp hb =>
    rw [fetchRange, hp] at h
    dsimp only at h
    rw [hb] at h
    cases h
    exact Nat.le_add_right _ _
  | case4 cursor baixados pagina hp blocos hb hne hfim =>
    rw [fetchRange, hp] at h
    dsimp only at h
    rw [hb] at h
    dsimp only at h
    rw [if_neg hne, dif_pos hfim] at h
    cases h
    rw [List.length_append]
    exact Nat.add_le_add_left (hpagina cursor pagina hp blocos hb) _
  | case5 cursor baixados pagina hp blocos hb hne hfim ih =>
    rw [fetchRange, hp] at h
    dsimp only at h
    rw [hb] at h
    dsimp only at h
    rw [if_neg hne, dif_neg hfim] at h
    have hresto := ih h
    have hbloco := hpagina cursor pagina hp blocos hb
    rw [List.length_append] at hresto
    omega

theorem commonAncestor_mem {localHashAt : ℕ → Option String} {janela : List (ℕ × String)} {k : ℕ}
    (h : commonAncestor localHashAt janela = some k) : ∃ hash, (k, hash) ∈ janela := by
  unfold commonAncestor at h
  obtain ⟨p, hp, rfl⟩ := Option.map_eq_some_iff.mp h
  exact ⟨p.2, List.mem_reverse.mp (List.mem_of_find?_eq_some hp)⟩

theorem mem_paresDaJanela {de k : ℕ} {hash : String} {janela : List JsonValue}
    (h : (k, hash) ∈ paresDaJanela de janela) : de ≤ k ∧ k < de + janela.length := by
  unfold paresDaJanela at h
  obtain ⟨⟨cru, i⟩, hmem, hpar⟩ := List.mem_filterMap.mp h
  obtain ⟨x, -, hx⟩ := Option.map_eq_some_iff.mp hpar
  obtain ⟨rfl, -⟩ := Prod.mk.inj hx
  have hlt := (List.mem_zipIdx hmem).2.1
  omega

theorem mapM_length {α β : Type} {f : α → Falha β} {as : List α} {bs : List β}
    (h : as.mapM f = .ok bs) : bs.length = as.length := by
  induction as generalizing bs with
  | nil =>
    cases h
    rfl
  | cons a as ih =>
    rw [List.mapM_cons] at h
    obtain ⟨y, -, h₁⟩ := except_bind_eq_ok.mp h
    obtain ⟨ys, hys, h₂⟩ := except_bind_eq_ok.mp h₁
    cases h₂
    rw [List.length_cons, List.length_cons, ih hys]

/-! ## Calls without effect -/

/-- A call that leaves the chain alone, whether it answers or fails. -/
def Inerte {α : Type} (m : Cadeia α) (c : Blockchain) : Prop :=
  (∃ a, m c = .ok a c) ∨ ∃ msg, m c = .error (.erro msg) c

theorem inerte_pure {α : Type} (a : α) (c : Blockchain) : Inerte (pure a : Cadeia α) c :=
  .inl ⟨a, rfl⟩

theorem inerte_conferir {α : Type} (x : Falha α) (c : Blockchain) :
    Inerte (conferir x : Cadeia α) c := by
  cases x with
  | ok a => exact .inl ⟨a, rfl⟩
  | error msg => exact .inr ⟨msg, rfl⟩

theorem Inerte.bind {α β : Type} {m : Cadeia α} {f : α → Cadeia β} (hm : Inerte m c)
    (hf : ∀ x, m c = .ok x c → Inerte (f x) c) : Inerte (m >>= f) c := by
  rcases hm with ⟨x, hx⟩ | ⟨msg, hmsg⟩
  · rcases hf x hx with ⟨y, hy⟩ | ⟨msg, hmsg⟩
    · exact .inl ⟨y, bind_eq_ok.mpr ⟨x, c, hx, hy⟩⟩
    · exact .inr ⟨msg, bind_eq_error.mpr (.inr ⟨x, c, hx, hmsg⟩)⟩
  · exact .inr ⟨msg, bind_eq_error.mpr (.inl hmsg)⟩

/-! ## Two tips of one height -/

/-- A list that does not make the chain longer changes nothing. -/
theorem reorg_curto {common now : ℤ} {novos : List Block}
    (hcurto : common + novos.length ≤ c.height) : Inerte (reorg amb common novos now) c := by
  unfold reorg
  refine Inerte.bind (.inl ⟨c, rfl⟩) fun d hd => ?_
  obtain rfl : c = d := by
    cases hd
    rfl
  refine (inerte_conferir _ c).bind fun _ _ => (inerte_conferir _ c).bind fun _ _ => ?_
  rw [if_pos hcurto]
  exact inerte_pure _ c

/-- Looking for a longer chain in a peer of the same height changes nothing. -/
theorem reorgFromPeerWindow_inerte {now : ℤ} (h : b.height ≤ a.height) :
    Inerte (reorgFromPeerWindow amb (honesto b) now a.height) a := by
  unfold reorgFromPeerWindow
  refine (inerte_conferir _ a).bind fun janela hjanela => ?_
  obtain ⟨hbaixou, -⟩ := conferir_eq_ok.mp hjanela
  have htam := fetchRange_honesto hbaixou
  refine Inerte.bind (.inl ⟨a, rfl⟩) fun d hd => ?_
  obtain rfl : a = d := by
    cases hd
    rfl
  cases hcomum : commonAncestor (hashesLocais a (a.height - Config.reorgWindow).toNat)
      (paresDaJanela (a.height - Config.reorgWindow).toNat janela) with
  | none => exact inerte_pure _ a
  | some k =>
    dsimp only
    split_ifs with hk
    · refine (inerte_conferir _ a).bind fun rabo hrabo => ?_
      obtain ⟨hrabo, -⟩ := conferir_eq_ok.mp hrabo
      have hlen : rabo.length =
          (janela.drop (k - (a.height - Config.reorgWindow).toNat + 1)).length :=
        (mapM_length hrabo)
      obtain ⟨hash, hmem⟩ := commonAncestor_mem hcomum
      obtain ⟨hde, hfim⟩ := mem_paresDaJanela hmem
      rw [List.length_drop] at hlen
      rw [List.length_nil] at htam
      refine Inerte.bind (reorg_curto (by omega)) fun r _ => ?_
      cases r with
      | manteve => exact inerte_pure _ a
      | adotou orfas => exact inerte_pure _ a
    · exact inerte_pure _ a

/-- A node at the height of its only peer, with another head. -/
structure Empatadas (a b : Blockchain) : Prop where
  altura : a.height = b.height
  cabecas : ∃ x y, a.head = some x ∧ b.head = some y ∧ x.hash ≠ y.hash

theorem Empatadas.symm (h : Empatadas a b) : Empatadas b a := by
  obtain ⟨x, y, hx, hy, hne⟩ := h.cabecas
  exact ⟨h.altura.symm, y, x, hy, hx, hne.symm⟩

/-- Its cycle of synchronisation changes nothing. -/
theorem Empatadas.syncOnce (h : Empatadas a b) (amb : Ambiente) (now : ℤ) :
    syncOnce amb now [honesto b] a = .ok () a := by
  obtain ⟨x, y, hx, hy, hne⟩ := h.cabecas
  have hsync : Inerte (syncWithPeer amb (honesto b) now b.height (b.head.map (·.hash))) a := by
    unfold syncWithPeer
    refine Inerte.bind (.inl ⟨a, rfl⟩) fun d hd => ?_
    obtain rfl : a = d := by
      cases hd
      rfl
    rw [if_neg h.altura.not_gt, if_pos h.altura.symm, hx, hy]
    dsimp only [Option.map_some]
    rw [if_neg hne.symm]
    refine (reorgFromPeerWindow_inerte h.altura.ge).bind fun r _ => inerte_pure () a
  have hstatus : (honesto b).status.bind (fun s => s.height.map fun n => (n, s.headHash)) =
      some (b.height, b.head.map (·.hash)) := rfl
  unfold P2p.syncOnce
  rw [hstatus]
  dsimp only
  rcases hsync with ⟨r, hr⟩ | ⟨msg, hmsg⟩
  · rw [hr]
    rfl
  · rw [hmsg]
    rfl

/-- Its gate is closed. -/
theorem Empatadas.checkPeers (h : Empatadas a b) :
    checkPeers [(honesto b).status] a.height (a.head.map (·.hash)) = .hold "tip-diverged" := by
  obtain ⟨x, y, hx, hy, hne⟩ := h.cabecas
  have hlido : lerTip a.height (honesto b).status = some ⟨b.height, some y.hash⟩ := by
    have hpouco : ¬ a.height + maxClaimLag < b.height := by
      have : (0 : ℤ) < maxClaimLag := by decide
      rw [h.altura]
      omega
    change (if a.height + maxClaimLag < b.height then none
      else some (⟨b.height, b.head.map (·.hash)⟩ : Tip)) = _
    rw [if_neg hpouco, hy]
    rfl
  unfold Follow.checkPeers
  rw [melhorTip, hlido, hx]
  have hlag : ¬ a.height + maxLagBlocks < b.height := by
    have : (0 : ℤ) < maxLagBlocks := by decide
    rw [h.altura]
    omega
  change decideAgainst (some ⟨b.height, some y.hash⟩) a.height (some x.hash) false = _
  unfold decideAgainst
  dsimp only
  rw [if_neg hlag, if_neg h.altura.not_lt, if_neg h.altura.not_gt, if_neg hne.symm]

/-! ## The pair -/

/-- What may happen to two nodes that have only each other as peer: a cycle of
synchronisation or a tick of production, at either of them. -/
inductive PassoDoPar (amb : Ambiente) : Blockchain × Blockchain → Blockchain × Blockchain → Prop
  | syncPrimeiro {a b a' : Blockchain} (now : ℤ)
      (h : P2p.syncOnce amb now [honesto b] a = .ok () a') : PassoDoPar amb (a, b) (a', b)
  | syncSegundo {a b b' : Blockchain} (now : ℤ)
      (h : P2p.syncOnce amb now [honesto a] b = .ok () b') : PassoDoPar amb (a, b) (a, b')
  | tickPrimeiro {a b a' : Blockchain} {r : Option Block} (signer : BlockSigner) (txs : List Tx)
      (lastSlot now : ℤ)
      (h : tickComPeers amb signer txs lastSlot now [(honesto b).status] a = .ok r a') :
      PassoDoPar amb (a, b) (a', b)
  | tickSegundo {a b b' : Blockchain} {r : Option Block} (signer : BlockSigner) (txs : List Tx)
      (lastSlot now : ℤ)
      (h : tickComPeers amb signer txs lastSlot now [(honesto a).status] b = .ok r b') :
      PassoDoPar amb (a, b) (a, b')

theorem Empatadas.tick (h : Empatadas a b) {signer : BlockSigner} {txs : List Tx}
    {lastSlot now : ℤ} {r : Option Block}
    (ht : tickComPeers amb signer txs lastSlot now [(honesto b).status] a = .ok r c) : c = a := by
  unfold tickComPeers at ht
  rw [h.checkPeers] at ht
  cases ht
  rfl

theorem Empatadas.passo (h : Empatadas a b) {par : Blockchain × Blockchain}
    (hp : PassoDoPar amb (a, b) par) : par = (a, b) := by
  cases hp with
  | syncPrimeiro now hs =>
    rw [h.syncOnce] at hs
    cases hs
    rfl
  | syncSegundo now hs =>
    rw [h.symm.syncOnce] at hs
    cases hs
    rfl
  | tickPrimeiro signer txs lastSlot now ht => rw [h.tick ht]
  | tickSegundo signer txs lastSlot now ht => rw [h.symm.tick ht]

/-- Nothing ever happens to such a pair. -/
theorem Empatadas.parado (h : Empatadas a b) {par : Blockchain × Blockchain}
    (hrun : Relation.ReflTransGen (PassoDoPar amb) (a, b) par) : par = (a, b) := by
  induction hrun with
  | refl => rfl
  | tail _ hp ih =>
    subst ih
    exact h.passo hp

end

/-- Two nodes after a fork of their tips: chains of one height over the same blocks
up to a height that both may still reorganise. -/
structure Forquilha (amb : Ambiente) (a b : Blockchain) : Prop where
  alcancadas : (∃ vistos, Corrida amb vistos a) ∧ ∃ vistos, Corrida amb vistos b
  cadeias : ∃ g as bs k, Coerente amb g as a ∧ Coerente amb g bs b ∧ as.length = bs.length ∧
    k ≤ as.length ∧ as.take k = bs.take k ∧ a.tailStart ≤ k ∧ b.tailStart ≤ k ∧
    as.length ≤ k + Config.reorgWindow ∧
    (∃ f, a.finalizedHeight = .ok f ∧ f ≤ k) ∧ ∃ f, b.finalizedHeight = .ok f ∧ f ≤ k
  cabecas : a.head.map (·.hash) ≠ b.head.map (·.hash)

/-- A cycle of synchronisation takes a node to the head of its peer. -/
def Adota (amb : Ambiente) (a b : Blockchain) : Prop :=
  ∃ now a', P2p.syncOnce amb now [honesto b] a = .ok () a' ∧
    a'.head.map (·.hash) = b.head.map (·.hash)

/-- One of the nodes adopts the chain of the other, or one of the gates lets its
producer work. -/
def Progride (amb : Ambiente) (a b : Blockchain) : Prop :=
  Adota amb a b ∨ Adota amb b a ∨
  checkPeers [(honesto b).status] a.height (a.head.map (·.hash)) = .allow ∨
  checkPeers [(honesto a).status] b.height (b.head.map (·.hash)) = .allow

theorem Forquilha.empatadas {amb : Ambiente} {a b : Blockchain} (h : Forquilha amb a b) :
    Empatadas a b := by
  obtain ⟨g, as, bs, k, ha, hb, hlen, -⟩ := h.cadeias
  refine ⟨by rw [ha.height, hb.height, hlen], ?_⟩
  have hcab : ∀ {c : Blockchain} {cs : List Block}, Coerente amb g cs c → ∃ x, c.head = some x := by
    intro c cs hc
    have hne : (g :: cs).getLast? ≠ none := by simp
    rw [hc.janela.head]
    exact Option.ne_none_iff_exists'.mp hne
  obtain ⟨x, hx⟩ := hcab ha
  obtain ⟨y, hy⟩ := hcab hb
  refine ⟨x, y, hx, hy, fun heq => h.cabecas ?_⟩
  rw [hx, hy, Option.map_some, Option.map_some, heq]

theorem Forquilha.naoProgride {amb : Ambiente} {a b : Blockchain} (h : Forquilha amb a b) :
    ¬ Progride amb a b := by
  have he := h.empatadas
  rintro (⟨now, a', hs, hadota⟩ | ⟨now, b', hs, hadota⟩ | habre | habre)
  · rw [he.syncOnce] at hs
    cases hs
    exact h.cabecas hadota
  · rw [he.symm.syncOnce] at hs
    cases hs
    exact h.cabecas hadota.symm
  · rw [he.checkPeers] at habre
    cases habre
  · rw [he.symm.checkPeers] at habre
    cases habre

/-- No fork of two tips of one height is ever resolved. -/
theorem forquilha_trava {amb : Ambiente} {a b : Blockchain} (h : Forquilha amb a b) :
    ¬ Progride amb a b ∧
      ∀ par, Relation.ReflTransGen (PassoDoPar amb) (a, b) par → par = (a, b) :=
  ⟨h.naoProgride, fun _ hrun => h.empatadas.parado hrun⟩

/-! ## Two blocks of one producer over one genesis -/

/-- The hash of the block that the second producer of the trio builds at a slot. -/
def hashNoSlot (slot : ℕ) : Option String :=
  (cadeiaTrio.montarBloco ambienteIdeal (assinanteDe (chaveIdeal 1)) [] (inicioDoSlot slot)
    none).toOption.map (·.1.hash)

/-- A built block carries the hash of its core. -/
theorem hash_of_montarBloco {c : Blockchain} {amb : Ambiente} {signer : BlockSigner}
    {txs : List Tx} {timestamp : ℤ} {conta : Option String} {r : Block × Recibos × State}
    (h : c.montarBloco amb signer txs timestamp conta = .ok r) :
    r.1.hash = amb.cripto.eavHash (octetosDe r.1.core) := by
  obtain ⟨bloco, recibos, sim⟩ := r
  obtain ⟨_, _, _, -, -, hb⟩ := montarBloco_ok h
  unfold buildBlock at hb
  obtain ⟨produtor, -, hb⟩ := except_bind_eq_ok.mp hb
  obtain ⟨chaves, -, hb⟩ := except_bind_eq_ok.mp hb
  obtain ⟨assinaturas, -, hb⟩ := except_bind_eq_ok.mp hb
  cases hb
  exact amb.cripto.eavHashOne_canonicalJson _

/-- The genesis with its hash written out. -/
def geneseLida : Block := { geneseTrio with hash := hashGeneseTrio }

theorem geneseLida_eq : geneseLida = geneseTrio := by
  unfold geneseLida
  rw [← hash_geneseTrio.out]

/-- The core of the block that the second producer of the trio builds at a slot. -/
def nucleoNoSlot (slot : ℕ) : Option JsonValue :=
  (Blockchain.montarBloco { cadeiaTrio with tail := [geneseLida] } ambienteIdeal
    (assinanteDe (chaveIdeal 1)) [] (inicioDoSlot slot) none).toOption.map (·.1.core)

theorem hashNoSlot_eq (slot : ℕ) : hashNoSlot slot = (nucleoNoSlot slot).map fun v =>
    criptoIdeal.eavHash (octetosDe v) := by
  unfold hashNoSlot nucleoNoSlot
  rw [geneseLida_eq]
  change _ = (Option.map _ (cadeiaTrio.montarBloco ambienteIdeal (assinanteDe (chaveIdeal 1)) []
    (inicioDoSlot slot) none).toOption).map _
  cases h : cadeiaTrio.montarBloco ambienteIdeal (assinanteDe (chaveIdeal 1)) []
      (inicioDoSlot slot) none with
  | ok r => exact congrArg some (hash_of_montarBloco h)
  | error e => rfl

/-- The second producer of the trio takes one of its slots. -/
theorem trio_produz (slot : ℕ)
    (hp : trio[slot % trio.length]? = some (produtorDe (chaveIdeal 1) enderecoB)) (hpos : 0 < slot)
    (hmax : slot ≤ 10 ^ 6) : ∃ b c,
      produceBlock ambienteIdeal (produtorDe (chaveIdeal 1) enderecoB).signer []
        (inicioDoSlot slot) none (10 ^ 9) cadeiaTrio = .ok b c ∧
      Pronta ambienteIdeal trio 1 c ∧
      Turno cadeiaTrio (produtorDe (chaveIdeal 1) enderecoB) 0 slot b c ∧
      hashNoSlot slot = some b.hash := by
  obtain ⟨b, c, hprod, hpronta, hturno⟩ := pronta_trio.produz digere_ideal trio_capaz trio_distinto
    hp (by decide) hpos hmax (le_refl (10 ^ 9 : ℤ)) (by
      rintro u ⟨⟩
      exact (by decide : slotFor geneseTrio.timestamp < 1).trans_le (by exact_mod_cast hpos))
  refine ⟨b, c, hprod, hpronta, hturno, ?_⟩
  obtain ⟨recibos, sim, hmonta, -⟩ := produceBlock_ok hprod
  unfold hashNoSlot
  change (cadeiaTrio.montarBloco ambienteIdeal
    (produtorDe (chaveIdeal 1) enderecoB).signer [] (inicioDoSlot slot) none).toOption.map _ = _
  rw [hmonta]
  rfl

/-- The chain of the trio after one block at a slot of its second producer. -/
theorem trio_no_slot (slot : ℕ)
    (hp : trio[slot % trio.length]? = some (produtorDe (chaveIdeal 1) enderecoB)) (hpos : 0 < slot)
    (hmax : slot ≤ 10 ^ 6) : ∃ b c,
      Coerente ambienteIdeal geneseTrio [b] c ∧ (∃ vistos, Corrida ambienteIdeal vistos c) ∧
      c.tailStart = 0 ∧ c.finalizedHeight = .ok (-1) ∧ c.head.map (·.hash) = hashNoSlot slot := by
  obtain ⟨b, c, hprod, hpronta, hturno, hhash⟩ := trio_produz slot hp hpos hmax
  have hadd := addBlock_of_produceBlock hprod
  have hcoer : Coerente ambienteIdeal geneseTrio [b] c := coerente_trio.addBlock hadd
  have hadds : Blockchain.addBlocks ambienteIdeal (10 ^ 9) [b] cadeiaTrio = .ok () c :=
    bind_eq_ok.mpr ⟨(), c, hadd, rfl⟩
  have hcorrida := corrida_trio.addBlocks hadds
  obtain ⟨sim, rfl⟩ := hturno.cadeia
  refine ⟨b, _, hcoer, ⟨_, hcorrida⟩, aceitar_tailStart b sim [], ?_, ?_⟩
  · obtain ⟨vs, hvs, hnomes⟩ := hpronta.rede
    have hlen : vs.length = 3 := by
      have := congrArg List.length hnomes
      rwa [List.length_map] at this
    refine finalizedHeight_curto hvs ?_
    rw [hcoer.height, hlen, List.length_singleton]
    decide
  · rw [aceitar_head, hhash]
    rfl

instance hashes_dos_slots : Fact (hashNoSlot 1 ≠ hashNoSlot 4) where
  out := by
    rw [hashNoSlot_eq, hashNoSlot_eq, criptoIdeal_eq]
    unfold nucleoNoSlot Blockchain.montarBloco
    rw [ambienteIdeal_eq]
    simp only [Cripto.stateRootOf_eq]
    decide +kernel

/-- The second producer of the trio at slot 1, and again at slot 4 on the genesis. -/
theorem forquilha_trio : ∃ a b, Forquilha ambienteIdeal a b := by
  obtain ⟨x, a, ha, hva, hta, hfa, hha⟩ := trio_no_slot 1 rfl (by decide) (by decide)
  obtain ⟨y, b, hb, hvb, htb, hfb, hhb⟩ := trio_no_slot 4 rfl (by decide) (by decide)
  refine ⟨a, b, ⟨hva, hvb⟩, ⟨geneseTrio, [x], [y], 0, ha, hb, rfl, Nat.zero_le _, rfl, hta.le,
    htb.le, Nat.le_of_ble_eq_true rfl, ⟨-1, hfa, by decide⟩, -1, hfb, by decide⟩, ?_⟩
  rw [hha, hhb]
  exact hashes_dos_slots.out

theorem forquilha_trava_trio : ∃ a b, Forquilha ambienteIdeal a b ∧ ¬ Progride ambienteIdeal a b ∧
    ∀ par, Relation.ReflTransGen (PassoDoPar ambienteIdeal) (a, b) par → par = (a, b) := by
  obtain ⟨a, b, h⟩ := forquilha_trio
  exact ⟨a, b, h, forquilha_trava h⟩

theorem forquilha_sem_saida :
    ¬ ∀ (amb : Ambiente) (a b : Blockchain), Forquilha amb a b → Progride amb a b := by
  intro hsai
  obtain ⟨a, b, h⟩ := forquilha_trio
  exact h.naoProgride (hsai ambienteIdeal a b h)

end P2p
end Eav7
