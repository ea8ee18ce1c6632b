import Eav7.Base.Arestas
import Eav7.Ciclo

/-!
# The books of the delegations

Each account keeps the sum of what it delegates and of what it receives, beside the edges
themselves. Delegating and taking back write one edge and the sums of its two ends.
-/

namespace Eav7

open Base

/-! ## Delegations and their sums -/

/-- What each account says it delegates and receives is what the edges say, and the edges
are in order. -/
structure Lastro (s : State) : Prop where
  saida : ∀ a, (s.account a).delegatedOut = Arestas.saida s.delegations a
  entrada : ∀ a, (s.account a).delegatedIn = Arestas.entrada s.delegations a
  arrumada : Arestas.Arrumada s.delegations

section

variable {s t : State}

theorem Lastro.congr (h : Lastro s) (hd : t.delegations = s.delegations)
    (hc : ∀ a, (t.account a).delegatedOut = (s.account a).delegatedOut ∧
      (t.account a).delegatedIn = (s.account a).delegatedIn) : Lastro t := by
  constructor
  · intro a
    rw [(hc a).1, hd]
    exact h.saida a
  · intro a
    rw [(hc a).2, hd]
    exact h.entrada a
  · rw [hd]
    exact h.arrumada

theorem lastro_ignoraConta {c : CampoConta} (hc : c ≠ .delegated) : IgnoraConta Lastro c where
  congr {s t} hs ha h := by
    have hd : t.delegations = s.delegations := by
      have hcampo := congrArg State.delegations hs
      exact hcampo
    apply h.congr hd
    intro a
    have hout := congrArg Account.delegatedOut (ha a)
    have hin := congrArg Account.delegatedIn (ha a)
    cases c with
    | delegated => exact absurd rfl hc
    | _ => exact ⟨hout, hin⟩

theorem lastro_ignora {c : Campo} (hc : c ≠ .accounts) (hd : c ≠ .delegations) :
    Ignora Lastro c where
  congr {s t} hs h := by
    have hcontas := congrArg State.accounts hs
    have hdeleg := congrArg State.delegations hs
    have hmesmos : t.accounts = s.accounts ∧ t.delegations = s.delegations := by
      cases c with
      | accounts => exact absurd rfl hc
      | delegations => exact absurd rfl hd
      | _ => exact ⟨hcontas, hdeleg⟩
    apply h.congr hmesmos.2
    intro a
    unfold State.account
    rw [hmesmos.1]
    exact ⟨rfl, rfl⟩

instance : IgnoraConta Lastro .balance := lastro_ignoraConta (by decide)
instance : IgnoraConta Lastro .nonce := lastro_ignoraConta (by decide)
instance : IgnoraConta Lastro .staked := lastro_ignoraConta (by decide)
instance : IgnoraConta Lastro .quota := lastro_ignoraConta (by decide)
instance : Ignora Lastro .totalBurned := lastro_ignora (by decide) (by decide)
instance : Ignora Lastro .unbonding := lastro_ignora (by decide) (by decide)
instance : Ignora Lastro .slashed := lastro_ignora (by decide) (by decide)
instance : Ignora Lastro .bridgeRelayers := lastro_ignora (by decide) (by decide)
instance : Ignora Lastro .vesting := lastro_ignora (by decide) (by decide)
instance : Ignora Lastro .bridgeSourceCommittees := lastro_ignora (by decide) (by decide)

theorem retoca_poeDelegacao (s : State) (dono para : String) (v : Amount) :
    Arestas.Retoca dono para s.delegations (s.poeDelegacao dono para v).delegations := by
  apply Arestas.Retoca.of_linha
  intro b hb
  exact OrdMap.get?_insert_of_ne _ hb v

theorem delegado_poeDelegacao (s : State) (dono para : String) (v : Amount) :
    (s.poeDelegacao dono para v).delegado dono para = v := by
  unfold State.poeDelegacao State.delegado
  dsimp only
  rw [OrdMap.getD_insert, if_pos rfl, OrdMap.getD_insert, if_pos rfl]

theorem tiraDelegacao_retoca (s : State) (dono para : String) :
    Arestas.Retoca dono para s.delegations (s.tiraDelegacao dono para).delegations ∧
      (s.tiraDelegacao dono para).delegado dono para = 0 ∧
      (s.tiraDelegacao dono para).accounts = s.accounts := by
  unfold State.tiraDelegacao
  cases hm : s.delegations.get? dono with
  | none =>
    refine ⟨⟨fun _ _ => rfl, fun _ _ => rfl⟩, ?_, rfl⟩
    unfold State.delegado OrdMap.getD
    simp [hm]
  | some m =>
    have hlinha := Arestas.linha_eq hm
    dsimp only
    split_ifs with hvazia
    · refine ⟨⟨Arestas.mudaDe_erase _ _, ?_⟩, ?_, rfl⟩
      · intro b hb
        rw [Arestas.linha_erase, hlinha, OrdMap.get?_empty, ← OrdMap.get?_erase_of_ne m hb]
        unfold OrdMap.get?
        rw [hvazia]
        rfl
      · unfold State.delegado
        dsimp only
        rw [OrdMap.getD_erase, if_pos rfl]
        rfl
    · refine ⟨Arestas.Retoca.of_linha ?_, ?_, rfl⟩
      · intro b hb
        rw [hlinha]
        exact OrdMap.get?_erase_of_ne m hb
      · unfold State.delegado
        dsimp only
        rw [OrdMap.getD_insert, if_pos rfl, OrdMap.getD_erase, if_pos rfl]

theorem tiraDelegacao_arrumada (h : Arestas.Arrumada s.delegations) (dono para : String) :
    Arestas.Arrumada (s.tiraDelegacao dono para).delegations := by
  unfold State.tiraDelegacao
  cases hm : s.delegations.get? dono with
  | none => exact h
  | some m =>
    dsimp only
    split_ifs with hvazia
    · apply h.muda (Arestas.mudaDe_erase _ _)
      · intro b v hv
        rw [Arestas.linha_erase] at hv
        cases hv
      · intro m' hm'
        rw [OrdMap.get?_erase_self] at hm'
        cases hm'
    · apply h.muda (Arestas.mudaDe_insert _ _ _)
      · intro b v hv
        rw [Arestas.linha_insert, OrdMap.get?_erase] at hv
        split_ifs at hv
        rw [← Arestas.linha_eq hm] at hv
        exact h.aresta dono b v hv
      · intro m' hm'
        rw [OrdMap.get?_insert_self] at hm'
        cases hm'
        exact hvazia

end

/-! ## Delegating and taking back -/

section

variable {cr : Cripto} {tx : Tx} {ctx : Ctx} {s t : State} {u : Unit}

theorem delegado_comSaldo (s : State) (a : String) (v : Amount) (x : String) :
    ((s.comSaldo a v).account x).delegatedOut = (s.account x).delegatedOut ∧
      ((s.comSaldo a v).account x).delegatedIn = (s.account x).delegatedIn := by
  unfold State.comSaldo
  rw [State.account_comConta]
  split_ifs with hx
  · rw [hx]
    exact ⟨rfl, rfl⟩
  · exact ⟨rfl, rfl⟩

theorem saida_comConta (s : State) (a : String) (v : Amount) (x : String) :
    ((s.comConta a fun c => { c with delegatedOut := v }).account x).delegatedOut =
      (if x = a then v else (s.account x).delegatedOut) ∧
    ((s.comConta a fun c => { c with delegatedOut := v }).account x).delegatedIn =
      (s.account x).delegatedIn := by
  rw [State.account_comConta]
  split_ifs with hx
  · rw [hx]
    exact ⟨rfl, rfl⟩
  · exact ⟨rfl, rfl⟩

theorem entrada_comConta (s : State) (a : String) (v : Amount) (x : String) :
    ((s.comConta a fun c => { c with delegatedIn := v }).account x).delegatedIn =
      (if x = a then v else (s.account x).delegatedIn) ∧
    ((s.comConta a fun c => { c with delegatedIn := v }).account x).delegatedOut =
      (s.account x).delegatedOut := by
  rw [State.account_comConta]
  split_ifs with hx
  · rw [hx]
    exact ⟨rfl, rfl⟩
  · exact ⟨rfl, rfl⟩

/-- The sums of both ends, as a handler writes them after it debits the fee. -/
def doisLados (s : State) (a b : String) (saldo saida entrada : Amount) : State :=
  ((s.comSaldo a saldo).comConta a fun c => { c with delegatedOut := saida }).comConta b
    fun c => { c with delegatedIn := entrada }

theorem account_doisLados (s : State) (a b : String) (saldo saida entrada : Amount) (x : String) :
    ((doisLados s a b saldo saida entrada).account x).delegatedOut =
      (if x = a then saida else (s.account x).delegatedOut) ∧
    ((doisLados s a b saldo saida entrada).account x).delegatedIn =
      if x = b then entrada else (s.account x).delegatedIn := by
  unfold doisLados
  constructor
  · rw [(entrada_comConta _ b entrada x).2, (saida_comConta _ a saida x).1,
      (delegado_comSaldo s a saldo x).1]
  · rw [(entrada_comConta _ b entrada x).1, (saida_comConta _ a saida x).2,
      (delegado_comSaldo s a saldo x).2]

/-- A sum that moves as its edge does stays the sum. -/
theorem lado_escrito {novo velho antes depois soma soma' : ℕ} (h : novo + antes = velho + depois)
    (hsoma : soma' + antes = soma + depois) (hvelho : velho = soma) : novo = soma' := by
  omega

/-- One edge is written together with the sums of its two ends. -/
theorem Lastro.doisLados {a b : String} {saldo saida entrada : Amount} (h : Lastro s)
    (ht : t.accounts = (doisLados s a b saldo saida entrada).accounts)
    (hr : Arestas.Retoca a b s.delegations t.delegations)
    (harruma : Arestas.Arrumada t.delegations)
    (hsaida : saida + s.delegado a b = (s.account a).delegatedOut + t.delegado a b)
    (hentrada : entrada + s.delegado a b = (s.account b).delegatedIn + t.delegado a b) :
    Lastro t := by
  have hconta : ∀ x, t.account x = (Eav7.doisLados s a b saldo saida entrada).account x := by
    intro x
    unfold State.account
    rw [ht]
  constructor
  · intro x
    rw [hconta, (account_doisLados s a b saldo saida entrada x).1]
    split_ifs with hx
    · rw [hx]
      exact lado_escrito hsaida hr.saida (h.saida a)
    · rw [hr.outras.saida hx]
      exact h.saida x
  · intro x
    rw [hconta, (account_doisLados s a b saldo saida entrada x).2]
    split_ifs with hx
    · rw [hx]
      exact lado_escrito hentrada hr.entrada (h.entrada b)
    · rw [hr.entrada_de_outro hx]
      exact h.entrada x
  · exact harruma

theorem delegateResource_lastro (h : delegateResource cr tx ctx s = .ok u t) (hs : Lastro s) :
    Lastro t := by
  unfold delegateResource at h
  rw [get_bind_run] at h
  obtain ⟨para, -, h⟩ := lift_bind_eq_ok.mp h
  obtain ⟨_, houtro, h⟩ := lift_bind_eq_ok.mp h
  obtain ⟨valor, -, h⟩ := lift_bind_eq_ok.mp h
  obtain ⟨_, hpos, h⟩ := lift_bind_eq_ok.mp h
  obtain ⟨saida, hsaida, h⟩ := lift_bind_eq_ok.mp h
  obtain ⟨_, -, h⟩ := lift_bind_eq_ok.mp h
  obtain ⟨_, -, h⟩ := lift_bind_eq_ok.mp h
  obtain ⟨entrada, hentrada, h⟩ := lift_bind_eq_ok.mp h
  obtain ⟨aresta, haresta, h⟩ := lift_bind_eq_ok.mp h
  obtain ⟨_, w, hdebita, h⟩ := bind_eq_ok.mp h
  obtain ⟨-, rfl⟩ := debitar_eq_ok hdebita
  rw [modify_bind_run, modify_bind_run] at h
  have hfim : t = (doisLados s tx.de para (s.balanceOf tx.de - ctx.fee) saida
      entrada).poeDelegacao tx.de para aresta := (EStateM.Result.ok.inj h).2.symm
  have hpos : 0 < valor := Nat.pos_of_ne_zero (recusar_eq_ok.mp hpos)
  have hcresce : 0 < aresta := by
    rw [(soma_eq_ok.mp haresta).1]
    exact Nat.add_pos_right _ hpos
  rw [hfim]
  refine hs.doisLados rfl (retoca_poeDelegacao s tx.de para aresta)
    (hs.arrumada.insert hcresce (recusar_eq_ok.mp houtro)) ?_ ?_
  · rw [delegado_poeDelegacao, (soma_eq_ok.mp hsaida).1, (soma_eq_ok.mp haresta).1]
    exact Nat.add_right_comm _ _ _ |>.trans (Nat.add_assoc _ _ _)
  · rw [delegado_poeDelegacao, (soma_eq_ok.mp hentrada).1, (soma_eq_ok.mp haresta).1]
    exact Nat.add_right_comm _ _ _ |>.trans (Nat.add_assoc _ _ _)

theorem undelegateResource_lastro (h : undelegateResource cr tx ctx s = .ok u t) (hs : Lastro s) :
    Lastro t := by
  unfold undelegateResource at h
  rw [get_bind_run] at h
  obtain ⟨para, -, h⟩ := lift_bind_eq_ok.mp h
  obtain ⟨valor, -, h⟩ := lift_bind_eq_ok.mp h
  obtain ⟨_, -, h⟩ := lift_bind_eq_ok.mp h
  obtain ⟨_, -, h⟩ := lift_bind_eq_ok.mp h
  obtain ⟨_, -, h⟩ := lift_bind_eq_ok.mp h
  obtain ⟨saida, hsaida, h⟩ := lift_bind_eq_ok.mp h
  obtain ⟨entrada, hentrada, h⟩ := lift_bind_eq_ok.mp h
  obtain ⟨resto, hresto, h⟩ := lift_bind_eq_ok.mp h
  obtain ⟨_, w, hdebita, h⟩ := bind_eq_ok.mp h
  obtain ⟨-, rfl⟩ := debitar_eq_ok hdebita
  rw [modify_bind_run, modify_bind_run] at h
  have hfim : t = if 0 < resto
      then (doisLados s tx.de para (s.balanceOf tx.de - ctx.fee) saida entrada).poeDelegacao
        tx.de para resto
      else (doisLados s tx.de para (s.balanceOf tx.de - ctx.fee) saida entrada).tiraDelegacao
        tx.de para := (EStateM.Result.ok.inj h).2.symm
  obtain ⟨rfl, hcabe⟩ := sub_eq_ok.mp hsaida
  obtain ⟨rfl, hcabe'⟩ := sub_eq_ok.mp hentrada
  obtain ⟨rfl, hle⟩ := sub_eq_ok.mp hresto
  have htira : ∀ {v a p : ℕ}, v ≤ a → v ≤ p → a - v + p = a + (p - v) := by
    intro v a p hva hvp
    omega
  rw [hfim]
  split_ifs with hpos
  · have hmaior : 0 < s.delegado tx.de para :=
      Nat.lt_of_lt_of_le hpos (Nat.sub_le _ _)
    refine hs.doisLados rfl (retoca_poeDelegacao s tx.de para _)
      (hs.arrumada.insert hpos (hs.arrumada.outro hmaior)) ?_ ?_
    · rw [delegado_poeDelegacao]
      exact htira hcabe hle
    · rw [delegado_poeDelegacao]
      exact htira hcabe' hle
  · obtain ⟨hretoca, hnada, hcontas⟩ := tiraDelegacao_retoca
      (doisLados s tx.de para (s.balanceOf tx.de - ctx.fee) _ _) tx.de para
    rw [← Nat.eq_zero_of_not_pos hpos] at hnada
    refine hs.doisLados hcontas hretoca ?_ ?_ ?_
    · exact tiraDelegacao_arrumada (s := doisLados s tx.de para _ _ _) hs.arrumada tx.de para
    · rw [hnada]
      exact htira hcabe hle
    · rw [hnada]
      exact htira hcabe' hle

end

end Eav7
