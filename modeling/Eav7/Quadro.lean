import Eav7.Endossos
import Eav7.Penalidade
import Eav7.Votacao

/-!
# Stake, the queue of withdrawals and the votes

Every accepted action says what it does to what the accounts have at stake and delegate,
to the queue of withdrawals and to the votes. What holds of them along a run is derived
from that.
-/

namespace Eav7

open Base

/-! ## The part of the state that the stakes and votes are read from -/

/-- Stakes, delegated amounts, withdrawals and votes. -/
@[ext] structure Quadro where
  stake : String → Amount
  cedido : String → Amount
  fila : List (String × Amount × ℕ)
  votes : OrdMap String (OrdMap String Amount)
  candidateVotes : OrdMap String Amount
  voterRewardDebt : OrdMap String (OrdMap String Amount)
  rewardAccPerVote : OrdMap String Amount
  commission : OrdMap String ℕ
  pendingCommission : OrdMap String (ℕ × ℕ)

def State.quadro (s : State) : Quadro where
  stake a := (s.account a).staked
  cedido a := (s.account a).delegatedOut
  fila := s.unbonding
  votes := s.votes
  candidateVotes := s.candidateVotes
  voterRewardDebt := s.voterRewardDebt
  rewardAccPerVote := s.rewardAccPerVote
  commission := s.commission
  pendingCommission := s.pendingCommission

/-- The fields of the state that are in the picture. -/
@[reducible] def Campo.doQuadro : Campo → Bool
  | accounts | unbonding | votes | candidateVotes | voterRewardDebt | rewardAccPerVote
  | commission | pendingCommission => true
  | _ => false

instance (c : Campo) [h : Alheio c.doQuadro] : Cego State.quadro c where
  cego s := by
    have hfora := h.fora
    cases c <;> first | rfl | cases hfora

section

variable {s t w : State}

theorem quadro_congr (hstake : ∀ a, (t.account a).staked = (s.account a).staked)
    (hcedido : ∀ a, (t.account a).delegatedOut = (s.account a).delegatedOut)
    (h : Campo.accounts.apaga t = Campo.accounts.apaga s) : t.quadro = s.quadro := by
  have hfila := congrArg State.unbonding h
  have hvotes := congrArg State.votes h
  have hcandidatos := congrArg State.candidateVotes h
  have hdebito := congrArg State.voterRewardDebt h
  have hacc := congrArg State.rewardAccPerVote h
  have hcomissao := congrArg State.commission h
  have hpendente := congrArg State.pendingCommission h
  exact Quadro.ext (funext hstake) (funext hcedido) hfila hvotes hcandidatos hdebito hacc hcomissao
    hpendente

theorem quadro_ignoraConta {c : CampoConta} {P : Quadro → Prop} (hs : c ≠ .staked)
    (hd : c ≠ .delegated) : IgnoraConta (Le State.quadro P) c where
  congr {t w} h ha hP := by
    have hquadro : w.quadro = t.quadro := by
      refine quadro_congr (fun a => ?_) (fun a => ?_) h
      · have hstake := congrArg Account.staked (ha a)
        cases c with
        | staked => exact absurd rfl hs
        | _ => exact hstake
      · have hcedido := congrArg Account.delegatedOut (ha a)
        cases c with
        | delegated => exact absurd rfl hd
        | _ => exact hcedido
    exact (congrArg P hquadro).mpr hP

instance (P : Quadro → Prop) : IgnoraConta (Le State.quadro P) .balance :=
  quadro_ignoraConta (by decide) (by decide)
instance (P : Quadro → Prop) : IgnoraConta (Le State.quadro P) .nonce :=
  quadro_ignoraConta (by decide) (by decide)
instance (P : Quadro → Prop) : IgnoraConta (Le State.quadro P) .quota :=
  quadro_ignoraConta (by decide) (by decide)
instance (P : Quadro → Prop) : IgnoraConta (Le State.quadro P) .eavmManaged :=
  quadro_ignoraConta (by decide) (by decide)

theorem quadro_comConta (s : State) (a : String) (f : Account → Account) :
    (s.comConta a f).quadro = { s.quadro with
      stake := Function.update s.quadro.stake a (f (s.account a)).staked
      cedido := Function.update s.quadro.cedido a (f (s.account a)).delegatedOut } := by
  refine Quadro.ext (funext fun b => ?_) (funext fun b => ?_) rfl rfl rfl rfl rfl rfl rfl
  · change ((s.comConta a f).account b).staked = Function.update s.quadro.stake a _ b
    rw [State.account_comConta, Function.update_apply]
    split_ifs <;> rfl
  · change ((s.comConta a f).account b).delegatedOut = Function.update s.quadro.cedido a _ b
    rw [State.account_comConta, Function.update_apply]
    split_ifs <;> rfl

/-- A write of an account that keeps its stake and what it delegates. -/
theorem quadro_de_conta {a : String} {f : Account → Account}
    (hs : (f (s.account a)).staked = (s.account a).staked)
    (hd : (f (s.account a)).delegatedOut = (s.account a).delegatedOut) :
    (s.comConta a f).quadro = s.quadro := by
  rw [quadro_comConta, hs, hd]
  have hstake := Function.update_eq_self a s.quadro.stake
  have hcedido := Function.update_eq_self a s.quadro.cedido
  exact Quadro.ext hstake hcedido rfl rfl rfl rfl rfl rfl rfl

/-- A write of an account that keeps what it delegates. -/
theorem quadro_comStake {a : String} {f : Account → Account} {novo : Amount}
    (hs : (f (s.account a)).staked = novo)
    (hd : (f (s.account a)).delegatedOut = (s.account a).delegatedOut) :
    (s.comConta a f).quadro =
      { s.quadro with stake := Function.update s.quadro.stake a novo } := by
  rw [quadro_comConta, hs, hd]
  have hcedido := Function.update_eq_self a s.quadro.cedido
  exact Quadro.ext rfl hcedido rfl rfl rfl rfl rfl rfl rfl

/-- A write of an account that keeps its stake. -/
theorem quadro_comCedido {a : String} {f : Account → Account} {novo : Amount}
    (hs : (f (s.account a)).staked = (s.account a).staked)
    (hd : (f (s.account a)).delegatedOut = novo) :
    (s.comConta a f).quadro =
      { s.quadro with cedido := Function.update s.quadro.cedido a novo } := by
  rw [quadro_comConta, hs, hd]
  have hstake := Function.update_eq_self a s.quadro.stake
  exact Quadro.ext hstake rfl rfl rfl rfl rfl rfl rfl rfl

theorem quadro_comFila (s : State) (fila : List (String × Amount × ℕ)) :
    ({ s with unbonding := fila } : State).quadro = { s.quadro with fila := fila } := rfl

theorem quadro_enfileira (s : State) (saques : List (String × Amount × ℕ)) :
    ({ s with unbonding := s.unbonding ++ saques } : State).quadro =
      { s.quadro with fila := s.quadro.fila ++ saques } := rfl

theorem quadro_comSaldo (s : State) (a : String) (v : Amount) :
    (s.comSaldo a v).quadro = s.quadro := quadro_de_conta rfl rfl

end

/-! ## What an operation does to it -/

/-- The picture without the votes. -/
def State.estacas (s : State) : Quadro :=
  { s.quadro with votes := ∅, candidateVotes := ∅, voterRewardDebt := ∅, rewardAccPerVote := ∅ }

/-- The votes and the commissions. -/
def State.urna (s : State) : Quadro :=
  { s.quadro with stake := fun _ => 0, cedido := fun _ => 0, fila := [] }

theorem cego_urna {c : Campo} (h : c ∉ [Campo.votes, .candidateVotes, .voterRewardDebt,
    .rewardAccPerVote, .commission, .pendingCommission]) : Cego State.urna c where
  cego s := by
    cases c <;> first | rfl | exact absurd (by decide) h

theorem estacas_congr {s t : State} (h : t.quadro = s.quadro) : t.estacas = s.estacas := by
  unfold State.estacas
  rw [h]

instance (P : Quadro → Prop) : IgnoraConta (Le State.estacas P) .balance where
  congr {s t} h ha hP := by
    have hparte := (inferInstance : IgnoraConta (Le State.quadro (· = s.quadro)) .balance)
    have hquadro : t.quadro = s.quadro := hparte.congr h ha rfl
    exact (congrArg P (estacas_congr hquadro)).mpr hP
instance : Cego State.estacas .votes := ⟨fun _ => rfl⟩
instance : Cego State.estacas .candidateVotes := ⟨fun _ => rfl⟩
instance : Cego State.estacas .voterRewardDebt := ⟨fun _ => rfl⟩

/-- The fee of a payer. -/
def taxaDe (pagador : String) (fee : Amount) (x : String) : ℕ := if x = pagador then fee else 0

/-- What an operation does to the stakes, the queue and the votes. `taxa` is what it takes
from the balances beside; `aval` says which withdrawals are endorsed by a permission. -/
inductive MudaQuadro (height : ℕ) (taxa : String → ℕ) (aval : String → Amount → Prop)
    (s t : State) : Prop
  | parada (h : t.quadro = s.quadro) : MudaQuadro height taxa aval s t
  | deposita (conta : String) (valor : Amount) (h : t.quadro = { s.quadro with
      stake := Function.update s.quadro.stake conta (s.quadro.stake conta + valor) }) :
      MudaQuadro height taxa aval s t
  | cede (conta : String) (cedido : Amount)
      (hcoberto : cedido ≤ s.quadro.stake conta ∨ cedido ≤ s.quadro.cedido conta)
      (h : t.quadro = { s.quadro with cedido := Function.update s.quadro.cedido conta cedido }) :
      MudaQuadro height taxa aval s t
  | saca (conta : String) (valor : Amount) (hpos : 0 < valor) (hcabe : valor ≤ s.quadro.stake conta)
      (hvaga : emFila s conta < Config.maxUnbondingEntries)
      (hcoberto : aval conta valor ∨ s.quadro.cedido conta ≤ s.quadro.stake conta - valor ∧
        Arestas.saida s.votes conta ≤ s.quadro.stake conta - valor)
      (h : t.quadro = { s.quadro with
        stake := Function.update s.quadro.stake conta (s.quadro.stake conta - valor)
        fila := s.unbonding ++ [(conta, valor, height + Config.unbondingBlocks)] }) :
      MudaQuadro height taxa aval s t
  | vota {conta : String} {m : OrdMap String Amount} (haloc : Alocacao s conta m)
      (h : Votado conta m s t) (hestacas : t.estacas = s.estacas)
      (hsaldos : ∀ x, t.balanceOf x + taxa x = s.balanceOf x +
        if x = conta then ((s.votosDe conta).keys.map (s.aReceber conta)).sum else 0) :
      MudaQuadro height taxa aval s t
  | resgata {conta validador : String} (h : Resgatado conta validador s t)
      (hestacas : t.estacas = s.estacas) (hsaldos : ∀ x, t.balanceOf x + taxa x = s.balanceOf x +
        if x = conta then s.aReceber conta validador else 0) :
      MudaQuadro height taxa aval s t
  | agenda (conta : String) (pct : ℕ) (hpct : pct ≤ 100) (h : t.quadro = { s.quadro with
      pendingCommission :=
        s.pendingCommission.insert conta (pct, height + Config.commissionDelayBlocks) }) :
      MudaQuadro height taxa aval s t

section

variable {s t u v : State} {conta : String} {height : ℕ} {taxa : String → ℕ}
  {aval : String → Amount → Prop}

theorem aReceber_congr (h : t.quadro = s.quadro) : t.aReceber = s.aReceber := by
  have hvotos : t.votes = s.votes := congrArg Quadro.votes h
  have hacc : t.rewardAccPerVote = s.rewardAccPerVote := congrArg Quadro.rewardAccPerVote h
  have hdebito : t.voterRewardDebt = s.voterRewardDebt := congrArg Quadro.voterRewardDebt h
  unfold State.aReceber State.votosDe State.debito
  rw [hvotos, hacc, hdebito]

theorem Votado.congr {m : OrdMap String Amount} (h : Votado conta m u v)
    (hs : u.quadro = s.quadro) (ht : t.quadro = v.quadro) : Votado conta m s t := by
  have hvotos : u.votes = s.votes := congrArg Quadro.votes hs
  have hcands : u.candidateVotes = s.candidateVotes := congrArg Quadro.candidateVotes hs
  have hacc : u.rewardAccPerVote = s.rewardAccPerVote := congrArg Quadro.rewardAccPerVote hs
  have hdebito : u.voterRewardDebt = s.voterRewardDebt := congrArg Quadro.voterRewardDebt hs
  have hvotos' : t.votes = v.votes := congrArg Quadro.votes ht
  have hcands' : t.candidateVotes = v.candidateVotes := congrArg Quadro.candidateVotes ht
  have hacc' : t.rewardAccPerVote = v.rewardAccPerVote := congrArg Quadro.rewardAccPerVote ht
  have hdebito' : t.voterRewardDebt = v.voterRewardDebt := congrArg Quadro.voterRewardDebt ht
  constructor
  · rw [hvotos', h.votos, hvotos]
  · rw [hacc', h.acumulado, hacc]
  · intro c
    have hc := h.candidatos c
    unfold State.votosDe at hc ⊢
    rw [hcands', ← hcands, ← hvotos]
    exact hc
  · intro hzero
    unfold SemZero at hzero ⊢
    rw [← hcands] at hzero
    rw [hcands']
    exact h.semZero hzero
  · intro a c
    have hc := h.debito a c
    unfold State.debito State.votosDe at hc ⊢
    rw [hdebito', ← hdebito, ← hvotos, ← hacc]
    exact hc

theorem Resgatado.congr {validador : String} (h : Resgatado conta validador u v)
    (hs : u.quadro = s.quadro) (ht : t.quadro = v.quadro) : Resgatado conta validador s t := by
  have hvotos : u.votes = s.votes := congrArg Quadro.votes hs
  have hcands : u.candidateVotes = s.candidateVotes := congrArg Quadro.candidateVotes hs
  have hacc : u.rewardAccPerVote = s.rewardAccPerVote := congrArg Quadro.rewardAccPerVote hs
  have hdebito : u.voterRewardDebt = s.voterRewardDebt := congrArg Quadro.voterRewardDebt hs
  have hvotos' : t.votes = v.votes := congrArg Quadro.votes ht
  have hcands' : t.candidateVotes = v.candidateVotes := congrArg Quadro.candidateVotes ht
  have hacc' : t.rewardAccPerVote = v.rewardAccPerVote := congrArg Quadro.rewardAccPerVote ht
  have hdebito' : t.voterRewardDebt = v.voterRewardDebt := congrArg Quadro.voterRewardDebt ht
  refine ⟨hvotos'.trans (h.votos.trans hvotos), hacc'.trans (h.acumulado.trans hacc),
    hcands'.trans (h.candidatos.trans hcands), fun a c => ?_⟩
  have hc := h.debito a c
  unfold State.debito at hc ⊢
  rw [hdebito', ← hdebito, ← hacc]
  exact hc

/-- An operation between steps that only move balances. -/
theorem MudaQuadro.entre (h : MudaQuadro height (fun _ => 0) aval u v) (hs : u.quadro = s.quadro)
    (ht : t.quadro = v.quadro)
    (hb : ∀ x n, v.balanceOf x = u.balanceOf x + n → t.balanceOf x + taxa x = s.balanceOf x + n) :
    MudaQuadro height taxa aval s t := by
  have hfila : u.unbonding = s.unbonding := congrArg Quadro.fila hs
  have hfila' : t.unbonding = v.unbonding := congrArg Quadro.fila ht
  have hvotos : u.votes = s.votes := congrArg Quadro.votes hs
  cases h with
  | parada h => exact .parada (ht.trans (h.trans hs))
  | deposita conta valor h =>
    rw [hs] at h
    exact .deposita conta valor (ht.trans h)
  | cede conta cedido hcoberto h =>
    rw [hs] at h hcoberto
    exact .cede conta cedido hcoberto (ht.trans h)
  | saca conta valor hpos hcabe hvaga hcoberto h =>
    rw [hs, hfila] at h
    rw [hs] at hcabe
    rw [hs, hvotos] at hcoberto
    unfold emFila at hvaga
    rw [hfila] at hvaga
    exact .saca conta valor hpos hcabe hvaga hcoberto (ht.trans h)
  | @vota conta m haloc h hestacas hsaldos =>
    have hlastro : (u.account conta).staked = (s.account conta).staked :=
      congrFun (congrArg Quadro.stake hs) conta
    have hlastro := hlastro ▸ haloc.lastro
    refine .vota ⟨haloc.cheia, haloc.valores, hlastro⟩ (h.congr hs ht) ?_ fun x => ?_
    · rw [estacas_congr ht, hestacas, estacas_congr hs]
    · refine hb x _ ?_
      have hx := hsaldos x
      rw [Nat.add_zero, aReceber_congr hs] at hx
      unfold State.votosDe at hx ⊢
      rwa [hvotos] at hx
  | resgata h hestacas hsaldos =>
    refine .resgata (h.congr hs ht) ?_ fun x => ?_
    · rw [estacas_congr ht, hestacas, estacas_congr hs]
    · refine hb x _ ?_
      have hx := hsaldos x
      rwa [Nat.add_zero, aReceber_congr hs] at hx
  | agenda conta pct hpct h =>
    have hpendente : u.pendingCommission = s.pendingCommission :=
      congrArg Quadro.pendingCommission hs
    rw [hs, hpendente] at h
    exact .agenda conta pct hpct (ht.trans h)

end

/-! ## The handlers -/

section

variable {cr : Cripto} {tx : Tx} {ctx : Ctx} {s t : State} {x : Unit} {taxa : String → ℕ}
  {aval : String → Amount → Prop}

theorem alturaApos_eq_ok {height blocos n : ℕ} {msg : String}
    (h : alturaApos height blocos msg = .ok n) : n = height + blocos := by
  unfold alturaApos at h
  split_ifs at h
  · exact (Except.ok.inj h).symm
  · cases h

theorem foldlM_soma {vs : List Amount} {a n : Amount}
    (h : vs.foldlM soma a = (.ok n : R Amount)) : n = a + vs.sum := by
  induction vs generalizing a with
  | nil =>
    cases h
    exact (Nat.add_zero _).symm
  | cons v vs ih =>
    rw [List.foldlM_cons] at h
    obtain ⟨b, hb, h⟩ := except_bind_eq_ok.mp h
    obtain ⟨rfl, -⟩ := soma_eq_ok.mp hb
    rw [ih h, List.sum_cons, Nat.add_assoc]

theorem votadoTotal_ok {n : Amount} {conta : String} (h : s.votadoTotal conta = .ok n) :
    n = Arestas.saida s.votes conta := by
  unfold State.votadoTotal at h
  rw [foldlM_soma h, Nat.zero_add]
  rfl

theorem debita_taxa {fee : Amount} {pagador : String} (h : debitar pagador fee s = .ok x t) :
    t.quadro = s.quadro ∧ ∀ y, t.balanceOf y + taxaDe pagador fee y = s.balanceOf y := by
  obtain ⟨hle, rfl⟩ := debitar_eq_ok h
  refine ⟨quadro_comSaldo _ _ _, fun y => ?_⟩
  rw [balanceOf_comSaldo_apply]
  unfold taxaDe
  split_ifs with hy
  · rw [hy]
    exact Nat.sub_add_cancel hle
  · rfl

theorem poeDelegacao_quadro (s : State) (dono para : String) (v : Amount) :
    (s.poeDelegacao dono para v).quadro = s.quadro := rfl

theorem tiraDelegacao_quadro (s : State) (dono para : String) :
    (s.tiraDelegacao dono para).quadro = s.quadro := by
  unfold State.tiraDelegacao
  split
  · rfl
  · split_ifs <;> rfl

theorem stake_quadro (h : stake tx ctx s = .ok x t) :
    MudaQuadro ctx.height taxa aval s t := by
  unfold stake at h
  rw [get_bind_run] at h
  obtain ⟨amount, -, h⟩ := lift_bind_eq_ok.mp h
  obtain ⟨_, -, h⟩ := lift_bind_eq_ok.mp h
  obtain ⟨total, -, h⟩ := lift_bind_eq_ok.mp h
  obtain ⟨_, -, h⟩ := lift_bind_eq_ok.mp h
  obtain ⟨novo, hnovo, h⟩ := lift_bind_eq_ok.mp h
  obtain ⟨rfl, -⟩ := soma_eq_ok.mp hnovo
  obtain ⟨_, u, hdebita, h⟩ := bind_eq_ok.mp h
  obtain ⟨hquadro, -⟩ := debita_taxa hdebita
  have hfim := (EStateM.Result.ok.inj h).2
  refine .deposita tx.de amount ?_
  rw [← hfim, quadro_comStake rfl rfl, hquadro]
  rfl

theorem unstake_quadro (h : unstake tx ctx s = .ok x t) :
    MudaQuadro ctx.height taxa aval s t := by
  unfold unstake at h
  rw [get_bind_run] at h
  obtain ⟨amount, -, h⟩ := lift_bind_eq_ok.mp h
  obtain ⟨_, hpos, h⟩ := lift_bind_eq_ok.mp h
  obtain ⟨_, -, h⟩ := lift_bind_eq_ok.mp h
  obtain ⟨_, -, h⟩ := lift_bind_eq_ok.mp h
  obtain ⟨restante, hsub, h⟩ := lift_bind_eq_ok.mp h
  obtain ⟨rfl, hle⟩ := sub_eq_ok.mp hsub
  obtain ⟨piso, hpiso, h⟩ := lift_bind_eq_ok.mp h
  obtain ⟨_, hvotos, h⟩ := lift_bind_eq_ok.mp h
  obtain ⟨_, hcedido, h⟩ := lift_bind_eq_ok.mp h
  obtain ⟨minStake, -, h⟩ := lift_bind_eq_ok.mp h
  obtain ⟨_, -, h⟩ := lift_bind_eq_ok.mp h
  obtain ⟨_, hvaga, h⟩ := lift_bind_eq_ok.mp h
  obtain ⟨matura, hmatura, h⟩ := lift_bind_eq_ok.mp h
  obtain rfl := alturaApos_eq_ok hmatura
  obtain ⟨_, u, hdebita, h⟩ := bind_eq_ok.mp h
  obtain ⟨hquadro, -⟩ := debita_taxa hdebita
  rw [modify_bind_run] at h
  have hfim := (EStateM.Result.ok.inj h).2
  have hvotos := not_lt.mp (recusar_eq_ok.mp hvotos)
  rw [votadoTotal_ok hpiso] at hvotos
  refine .saca tx.de amount (Nat.pos_of_ne_zero (recusar_eq_ok.mp hpos)) hle
    (not_le.mp (recusar_eq_ok.mp hvaga)) (.inr ⟨not_lt.mp (recusar_eq_ok.mp hcedido), hvotos⟩) ?_
  rw [← hfim]
  refine (quadro_enfileira _ _).trans ?_
  rw [quadro_comStake rfl rfl, hquadro]
  rfl

theorem delegateResource_quadro (h : delegateResource cr tx ctx s = .ok x t) :
    MudaQuadro ctx.height taxa aval s t := by
  unfold delegateResource at h
  rw [get_bind_run] at h
  obtain ⟨para, -, h⟩ := lift_bind_eq_ok.mp h
  obtain ⟨_, -, h⟩ := lift_bind_eq_ok.mp h
  obtain ⟨valor, -, h⟩ := lift_bind_eq_ok.mp h
  obtain ⟨_, -, h⟩ := lift_bind_eq_ok.mp h
  obtain ⟨novo, -, h⟩ := lift_bind_eq_ok.mp h
  obtain ⟨_, hcoberto, h⟩ := lift_bind_eq_ok.mp h
  obtain ⟨_, -, h⟩ := lift_bind_eq_ok.mp h
  obtain ⟨entrada, -, h⟩ := lift_bind_eq_ok.mp h
  obtain ⟨aresta, -, h⟩ := lift_bind_eq_ok.mp h
  obtain ⟨_, u, hdebita, h⟩ := bind_eq_ok.mp h
  obtain ⟨hquadro, -⟩ := debita_taxa hdebita
  rw [modify_bind_run, modify_bind_run] at h
  have hfim := (EStateM.Result.ok.inj h).2
  have hcoberto : novo ≤ s.quadro.stake tx.de := not_lt.mp (recusar_eq_ok.mp hcoberto)
  refine .cede tx.de novo (.inl hcoberto) ?_
  rw [← hfim, poeDelegacao_quadro, quadro_de_conta rfl rfl, quadro_comCedido rfl rfl, hquadro]

theorem undelegateResource_quadro (h : undelegateResource cr tx ctx s = .ok x t) :
    MudaQuadro ctx.height taxa aval s t := by
  unfold undelegateResource at h
  rw [get_bind_run] at h
  obtain ⟨para, -, h⟩ := lift_bind_eq_ok.mp h
  obtain ⟨valor, -, h⟩ := lift_bind_eq_ok.mp h
  obtain ⟨_, -, h⟩ := lift_bind_eq_ok.mp h
  obtain ⟨_, -, h⟩ := lift_bind_eq_ok.mp h
  obtain ⟨_, -, h⟩ := lift_bind_eq_ok.mp h
  obtain ⟨novo, hnovo, h⟩ := lift_bind_eq_ok.mp h
  obtain ⟨entrada, -, h⟩ := lift_bind_eq_ok.mp h
  obtain ⟨resto, -, h⟩ := lift_bind_eq_ok.mp h
  obtain ⟨rfl, -⟩ := sub_eq_ok.mp hnovo
  obtain ⟨_, u, hdebita, h⟩ := bind_eq_ok.mp h
  obtain ⟨hquadro, -⟩ := debita_taxa hdebita
  rw [modify_bind_run, modify_bind_run] at h
  have hfim := (EStateM.Result.ok.inj h).2
  refine .cede tx.de _ (.inr (Nat.sub_le _ valor)) ?_
  have hmesmo : ∀ w : State, (if 0 < resto then w.poeDelegacao tx.de para resto
      else w.tiraDelegacao tx.de para).quadro = w.quadro := by
    intro w
    split_ifs
    · exact poeDelegacao_quadro _ _ _ _
    · exact tiraDelegacao_quadro _ _ _
  rw [← hfim, hmesmo, quadro_de_conta rfl rfl, quadro_comCedido rfl rfl, hquadro]
  rfl

theorem aplicarVoto_quadro {conta : String} {votos : Option JsonValue} {height : ℕ}
    (h : aplicarVoto cr conta votos s = .ok x t) :
    MudaQuadro height (fun _ => 0) aval s t := by
  obtain ⟨m, haloc, hvotado, hsaldos⟩ := aplicarVoto_ok h
  have hestacas := aplicarVoto_mantem (I := Le State.estacas (· = s.estacas)) cr conta votos
  exact .vota haloc hvotado (hestacas.ok rfl h) hsaldos

theorem liquidarRecompensa_quadro {conta validador : String} {height : ℕ}
    (h : liquidarRecompensa conta validador s = .ok x t) :
    MudaQuadro height (fun _ => 0) aval s t := by
  obtain ⟨hliquida, hcands⟩ := liquidarRecompensa_ok h
  have hestacas := liquidarRecompensa_mantem (I := Le State.estacas (· = s.estacas)) conta validador
  refine .resgata (hliquida.resgatado hcands) (hestacas.ok rfl h) fun y => ?_
  rw [Nat.add_zero, hliquida.saldos, List.map_singleton, List.sum_singleton]

theorem setCommission_quadro (h : setCommission tx ctx s = .ok x t) :
    MudaQuadro ctx.height taxa aval s t := by
  unfold setCommission at h
  rw [get_bind_run] at h
  obtain ⟨pct, hpct, h⟩ := lift_bind_eq_ok.mp h
  obtain ⟨_, -, h⟩ := lift_bind_eq_ok.mp h
  obtain ⟨ativaEm, hativa, h⟩ := lift_bind_eq_ok.mp h
  obtain rfl := alturaApos_eq_ok hativa
  obtain ⟨_, u, hdebita, h⟩ := bind_eq_ok.mp h
  obtain ⟨hquadro, -⟩ := debita_taxa hdebita
  have hfim := (EStateM.Result.ok.inj h).2
  have hcabe : pct ≤ 100 := by
    obtain ⟨p, -, hp⟩ := Option.bind_eq_some_iff.mp (exigir_eq_ok.mp hpct)
    split_ifs at hp with hp100
    cases hp
    exact Int.toNat_le.mpr hp100.2
  have hpendente : u.pendingCommission = s.pendingCommission :=
    congrArg Quadro.pendingCommission hquadro
  refine .agenda tx.de pct hcabe ?_
  rw [← hfim, ← hquadro, ← hpendente]
  rfl

theorem vote_quadro (h : vote cr tx ctx s = .ok x t) :
    MudaQuadro ctx.height (taxaDe tx.de ctx.fee) aval s t := by
  unfold vote at h
  rw [get_bind_run] at h
  obtain ⟨_, -, h⟩ := lift_bind_eq_ok.mp h
  obtain ⟨_, u, hvoto, h⟩ := bind_eq_ok.mp h
  obtain ⟨hquadro, hsaldos⟩ := debita_taxa h
  refine (aplicarVoto_quadro hvoto).entre rfl hquadro fun y n hn => ?_
  rw [hsaldos]
  exact hn

theorem claimVoterReward_quadro (h : claimVoterReward cr tx ctx s = .ok x t) :
    MudaQuadro ctx.height (taxaDe tx.de ctx.fee) aval s t := by
  unfold claimVoterReward at h
  rw [get_bind_run] at h
  obtain ⟨validador, -, h⟩ := lift_bind_eq_ok.mp h
  obtain ⟨_, -, h⟩ := lift_bind_eq_ok.mp h
  obtain ⟨_, -, h⟩ := lift_bind_eq_ok.mp h
  obtain ⟨_, u, hdebita, h⟩ := bind_eq_ok.mp h
  obtain ⟨hquadro, hsaldos⟩ := debita_taxa hdebita
  refine (liquidarRecompensa_quadro h).entre hquadro rfl fun y n hn => ?_
  rw [hn, Nat.add_right_comm, hsaldos]

end

/-! ## Operations of a permission -/

namespace GovTx

/-- What a validation resolves to. -/
def Resolve (P : OpResolvida → Prop) (r : R OpResolvida) : Prop := ∀ op, r = .ok op → P op

section

variable {P : OpResolvida → Prop}

theorem Resolve.bind {α : Type} {x : R α} {f : α → R OpResolvida}
    (hf : ∀ a, x = .ok a → Resolve P (f a)) : Resolve P (x >>= f) := by
  intro op h
  obtain ⟨a, ha, h⟩ := except_bind_eq_ok.mp h
  exact hf a ha op h

theorem Resolve.ok {op : OpResolvida} (h : P op) : Resolve P (.ok op) := by
  rintro _ ⟨⟩
  exact h

end

/-- A withdrawal takes something and there is a place for it; a commission is a percentage. -/
structure OpAceita (s : State) (account : String) (op : OpResolvida) : Prop where
  saque : ∀ amount, op = .unstake amount →
    0 < amount ∧ emFila s account < Config.maxUnbondingEntries
  comissao : ∀ pct, op = .setCommission pct → pct ≤ 100

/-- The operations that ask for nothing. -/
theorem Resolve.livre {s : State} {account : String} {op : OpResolvida}
    (hsaque : ∀ amount, op ≠ .unstake amount) (hcomissao : ∀ pct, op ≠ .setCommission pct) :
    Resolve (OpAceita s account) (pure op) :=
  .ok ⟨fun amount hop => absurd hop (hsaque amount), fun pct hop => absurd hop (hcomissao pct)⟩

theorem validarUnstake_aceito {s : State} {account : String} {conta : Account} {op : JsonValue}
    {height : ℕ} : Resolve (OpAceita s account) (validarUnstake s account conta op height) := by
  refine .bind fun amount hamount => .bind fun _ _ => .bind fun _ _ => .bind fun _ _ => ?_
  refine .bind fun _ hvaga => .bind fun _ _ => .ok ⟨?_, fun pct h => by cases h⟩
  rintro _ ⟨⟩
  obtain ⟨_, -, hamount⟩ := except_bind_eq_ok.mp hamount
  obtain ⟨_, hpos, hamount⟩ := except_bind_eq_ok.mp hamount
  cases hamount
  exact ⟨Nat.pos_of_ne_zero (recusar_eq_ok.mp hpos), not_le.mp (recusar_eq_ok.mp hvaga)⟩

theorem validarSetCommission_aceito {s : State} {account : String} {op : JsonValue} {height : ℕ} :
    Resolve (OpAceita s account) (validarSetCommission op height) := by
  refine .bind fun pct _ => .bind fun _ hpct => .bind fun _ _ => .ok ⟨?_, ?_⟩
  · rintro _ ⟨⟩
  rintro _ ⟨⟩
  have hle := not_or.mp (recusar_eq_ok.mp hpct)
  exact Int.toNat_le.mpr (not_lt.mp hle.2)

theorem validarOp_aceita {cr : Cripto} {s : State} {account : String} {op : JsonValue}
    {height : ℕ} : Resolve (OpAceita s account) (validarOp cr s account op height) := by
  refine .bind fun tipo _ => ?_
  dsimp only
  split
  case h_1 =>
    refine .bind fun _ _ => .bind fun _ _ => .bind fun _ _ => .bind fun _ _ => ?_
    exact .livre (fun _ h => by cases h) fun _ h => by cases h
  case h_2 =>
    refine .bind fun _ _ => .bind fun _ _ => .bind fun _ _ => ?_
    exact .livre (fun _ h => by cases h) fun _ h => by cases h
  case h_3 => exact validarUnstake_aceito
  case h_4 => exact validarSetCommission_aceito
  case h_5 =>
    unfold validarPermissionChange
    split
    · exact .livre (fun _ h => by cases h) fun _ h => by cases h
    · exact .bind fun _ _ => .livre (fun _ h => by cases h) fun _ h => by cases h
  case h_6 =>
    refine .bind fun _ _ => .bind fun _ _ => .bind fun _ _ => ?_
    exact .livre (fun _ h => by cases h) fun _ h => by cases h
  case h_7 => exact .livre (fun _ h => by cases h) fun _ h => by cases h
  case h_8 => exact .livre (fun _ h => by cases h) fun _ h => by cases h
  case h_9 =>
    refine .bind fun _ _ => .bind fun _ _ => ?_
    exact .livre (fun _ h => by cases h) fun _ h => by cases h
  case h_10 =>
    refine .bind fun _ _ => .bind fun _ _ => .bind fun _ _ => .bind fun _ _ => ?_
    exact .livre (fun _ h => by cases h) fun _ h => by cases h
  case h_11 =>
    refine .bind fun _ _ => .bind fun _ _ => .bind fun _ _ => .bind fun _ _ => ?_
    exact .livre (fun _ h => by cases h) fun _ h => by cases h
  case h_12 => exact fun _ h => by cases h

variable {amb : Ambiente} {tx : Tx} {ctx : Ctx} {s t u : State} {x : Unit}

theorem aplicarOp_quadro {account opId : String} {op : OpResolvida} {height : ℕ}
    {aval : String → Amount → Prop} (haceito : OpAceita s account op)
    (haval : ∀ amount, op = .unstake amount → aval account amount)
    (h : aplicarOp amb.cripto account op height opId s = .ok x t) :
    MudaQuadro height (fun _ => 0) aval s t := by
  have hnada : Mantem (Le State.quadro (· = s.quadro)) (aplicarOp amb.cripto account op height opId)
      → MudaQuadro height (fun _ => 0) aval s t := fun hm => .parada (Mantem.le hm h)
  cases op with
  | transfer para amount =>
    exact hnada (.bind (debitar_mantem _ _) fun _ => creditar_mantem _ _)
  | stake amount =>
    obtain ⟨_, u, hdebita, h⟩ := bind_eq_ok.mp h
    obtain ⟨hquadro, -⟩ := debita_taxa hdebita
    rw [get_bind_run] at h
    obtain ⟨_, -, h⟩ := lift_bind_eq_ok.mp h
    have hfim := (EStateM.Result.ok.inj h).2
    refine .deposita account amount ?_
    have hstake : (u.account account).staked = s.quadro.stake account :=
      congrFun (congrArg Quadro.stake hquadro) account
    have hsoma : (u.account account).staked + amount = s.quadro.stake account + amount :=
      congrArg (· + amount) hstake
    rw [← hfim, quadro_comStake hsoma rfl, hquadro]
  | unstake amount =>
    obtain ⟨hpos, hvaga⟩ := haceito.saque amount rfl
    unfold aplicarOp at h
    dsimp only at h
    rw [get_bind_run] at h
    obtain ⟨_, hcabe, h⟩ := lift_bind_eq_ok.mp h
    rw [modify_bind_run] at h
    obtain ⟨matura, hmatura, h⟩ := lift_bind_eq_ok.mp h
    obtain rfl := alturaApos_eq_ok hmatura
    have hfim := (EStateM.Result.ok.inj h).2
    refine .saca account amount hpos (not_lt.mp (recusar_eq_ok.mp hcabe)) hvaga (.inl (haval amount rfl)) ?_
    rw [← hfim]
    refine (quadro_enfileira _ _).trans ?_
    rw [quadro_comStake rfl rfl]
    rfl
  | setCommission pct =>
    obtain ⟨em, hem, h⟩ := lift_bind_eq_ok.mp h
    obtain rfl := alturaApos_eq_ok hem
    have hfim := (EStateM.Result.ok.inj h).2
    refine .agenda account pct (haceito.comissao pct rfl) ?_
    rw [← hfim]
    rfl
  | tokenTransfer token para amount => exact hnada (efeitoMetaTransfer_mantem _ _ _ _ _)
  | nftTransfer colecao tokenId para => exact hnada (efeitoMultisigTransfer_mantem _ _ _ _ _)
  | vote votos => exact aplicarVoto_quadro h
  | claimVoterReward validador => exact liquidarRecompensa_quadro h
  | permissionChange perm =>
    exact hnada (.modify_intro (aplicarPermissionChange_mantem account perm))
  | govPropose param value votingBlocks => exact hnada (gravarPropostaGov_mantem _ _ _ _ _ _ _)
  | govVote proposalId => exact hnada (aplicarVotoGov_mantem _ _ _)

/-- The withdrawals that a transaction carries out for a permission. -/
def Avalizado (amb : Ambiente) (s : State) (tx : Tx) (height blockTs : ℕ) (conta : String)
    (valor : Amount) : Prop :=
  ∃ fee e, Endossa amb s tx ⟨height, blockTs, fee⟩ e ∧ e.account = conta ∧
    e.resolvida = some (.unstake valor)

theorem cobrarTaxa_taxa (h : cobrarTaxa tx ctx s = .ok x t) :
    t.quadro = s.quadro ∧ ∀ y, t.balanceOf y + taxaDe tx.de ctx.fee y = s.balanceOf y := by
  unfold cobrarTaxa at h
  rw [get_bind_run] at h
  obtain ⟨_, -, h⟩ := lift_bind_eq_ok.mp h
  exact debita_taxa h

/-- An operation that runs after the fee of its transaction. -/
theorem operacao_quadro {v w : State} {account opId : String} {op : OpResolvida} {height : ℕ}
    {aval : String → Amount → Prop} (htaxa : cobrarTaxa tx ctx s = .ok ⟨⟩ v)
    (hw : w.quadro = v.quadro) (hsaldos : ∀ y, w.balanceOf y = v.balanceOf y)
    (haceito : OpAceita s account op)
    (haval : ∀ amount, op = .unstake amount → aval account amount)
    (h : aplicarOp amb.cripto account op height opId w = .ok x t) :
    MudaQuadro height (taxaDe tx.de ctx.fee) aval s t := by
  obtain ⟨hquadro, hpaga⟩ := cobrarTaxa_taxa htaxa
  have hfila : w.unbonding = s.unbonding := congrArg Quadro.fila (hw.trans hquadro)
  have haceito' : OpAceita w account op := by
    refine ⟨fun amount hop => ?_, haceito.comissao⟩
    obtain ⟨hpos, hvaga⟩ := haceito.saque amount hop
    unfold emFila at hvaga ⊢
    rw [hfila]
    exact ⟨hpos, hvaga⟩
  refine (aplicarOp_quadro haceito' haval h).entre (hw.trans hquadro) rfl fun y n hn => ?_
  rw [hn, hsaldos, Nat.add_right_comm, hpaga]

theorem multisigPropose_quadro {height blockTs : ℕ} {fee : Amount} {gb : Peek} {recebido : ℕ}
    (htipo : Tipo.deTexto tx.txType = some .multisigPropose)
    (hentrada : conferirEntrada s tx = .ok recebido)
    (htaxa : apurarTaxa s tx height = .ok (gb, fee))
    (h : multisigPropose amb.cripto tx ⟨height, blockTs, fee⟩ s = .ok x t) :
    MudaQuadro height (taxaDe tx.de fee) (Avalizado amb s tx height blockTs) s t := by
  unfold multisigPropose at h
  rw [get_bind_run] at h
  obtain ⟨p, hp, h⟩ := lift_bind_eq_ok.mp h
  obtain ⟨_, v, hcobra, h⟩ := bind_eq_ok.mp h
  have hendossa : Endossa amb s tx ⟨height, blockTs, fee⟩ p.endosso :=
    .proposta htipo ⟨⟨_, hentrada⟩, ⟨_, htaxa⟩, ⟨_, hcobra⟩⟩ hp
  cases hop : p.resolvida with
  | some op =>
    rw [hop] at h
    obtain ⟨perm, nivel, escopo, -, -, -, -, -, hresolve⟩ := conferirProposta_eq_ok hp
    refine operacao_quadro hcobra rfl (fun _ => rfl)
      (validarOp_aceita _ (hresolve op hop).2) (fun amount hamount => ?_) h
    exact ⟨fee, p.endosso, hendossa, rfl, hop.trans (congrArg some hamount)⟩
  | none =>
    rw [hop] at h
    obtain ⟨hquadro, -⟩ := cobrarTaxa_taxa hcobra
    obtain rfl := (EStateM.Result.ok.inj h).2
    exact .parada hquadro

theorem multisigApprove_quadro {height blockTs : ℕ} {fee : Amount} {gb : Peek} {recebido : ℕ}
    (htipo : Tipo.deTexto tx.txType = some .multisigApprove)
    (hentrada : conferirEntrada s tx = .ok recebido)
    (htaxa : apurarTaxa s tx height = .ok (gb, fee))
    (h : multisigApprove amb.cripto tx ⟨height, blockTs, fee⟩ s = .ok x t) :
    MudaQuadro height (taxaDe tx.de fee) (Avalizado amb s tx height blockTs) s t := by
  unfold multisigApprove at h
  rw [get_bind_run] at h
  obtain ⟨a, ha, h⟩ := lift_bind_eq_ok.mp h
  obtain ⟨_, v, hcobra, h⟩ := bind_eq_ok.mp h
  have hendossa : Endossa amb s tx ⟨height, blockTs, fee⟩ a.endosso :=
    .aprovacao htipo ⟨⟨_, hentrada⟩, ⟨_, htaxa⟩, ⟨_, hcobra⟩⟩ ha
  cases hop : a.resolvida with
  | some op =>
    rw [hop] at h
    dsimp only at h
    obtain ⟨-, perm, nivel, escopo, -, -, -, -, -, hresolve⟩ := conferirAprovacao_eq_ok ha
    rw [modify_bind_run] at h
    refine operacao_quadro (w := { v with pendingOps := v.pendingOps.erase a.opId }) hcobra rfl
      (fun _ => rfl) (validarOp_aceita _ (hresolve op hop).2.2) (fun amount hamount => ?_) h
    exact ⟨fee, a.endosso, hendossa, rfl, hop.trans (congrArg some hamount)⟩
  | none =>
    rw [hop] at h
    obtain ⟨hquadro, -⟩ := cobrarTaxa_taxa hcobra
    obtain rfl := (EStateM.Result.ok.inj h).2
    exact .parada hquadro

end GovTx

/-! ## The reward of a block and the tick -/

/-- A reward was shared: the cut of the treasury, the commission, and the share of the voters
with what the accumulator gained by it. -/
structure Partilhado (p : String) (corte comissao parcela inc : Amount) (s t : State) :
    Prop where
  inc_eq : inc = parcela * Config.rewardScale / s.candidateVotes.getD p 0
  comVotos : s.candidateVotes.getD p 0 = 0 → parcela = 0
  tesouraria : t.treasury = s.treasury + corte
  saldos : ∀ x, t.balanceOf x = s.balanceOf x + if x = p then
    comissao + (parcela - inc * s.candidateVotes.getD p 0 / Config.rewardScale) else 0
  acumulado : ∀ c, t.rewardAccPerVote.getD c 0 =
    s.rewardAccPerVote.getD c 0 + if c = p then inc else 0
  resto : { t.quadro with rewardAccPerVote := s.rewardAccPerVote } = s.quadro

section

variable {s t u : State} {x : Unit} {p : String}

theorem cortarTesouraria_ok {reward resto : Amount}
    (h : cortarTesouraria reward s = .ok resto t) :
    ∃ corte, corte + resto = reward ∧ t = { s with treasury := s.treasury + corte } := by
  unfold cortarTesouraria at h
  rw [get_bind_run] at h
  obtain ⟨pct, -, h⟩ := lift_bind_eq_ok.mp h
  obtain ⟨bruto, -, h⟩ := lift_bind_eq_ok.mp h
  split_ifs at h with hcorte
  · obtain ⟨_, -, h⟩ := lift_bind_eq_ok.mp h
    rw [modify_bind_run] at h
    obtain ⟨hsub, rfl⟩ := lift_eq_ok.mp h
    obtain ⟨rfl, hle⟩ := sub_eq_ok.mp hsub
    exact ⟨bruto / 100, Nat.add_sub_of_le hle, rfl⟩
  · obtain ⟨rfl, rfl⟩ := pure_eq_ok.mp h
    exact ⟨0, Nat.zero_add _, rfl⟩

theorem distributeBlockReward_ok {reward : Amount}
    (hpct : ∀ pct, s.commission.get? p = some pct → pct ≤ 100)
    (h : distributeBlockReward p reward s = .ok x t) :
    ∃ corte comissao parcela inc, corte + comissao + parcela = reward ∧
      Partilhado p corte comissao parcela inc s t := by
  unfold distributeBlockReward at h
  obtain ⟨resto, u, hcorta, h⟩ := bind_eq_ok.mp h
  obtain ⟨corte, rfl, rfl⟩ := cortarTesouraria_ok hcorta
  rw [get_bind_run] at h
  dsimp only at h
  split_ifs at h with hvazio
  · obtain rfl := creditar_eq_ok h
    refine ⟨corte, resto, 0, 0, Nat.add_zero _, ⟨?_, fun _ => rfl, rfl, ?_, ?_, ?_⟩⟩
    · rw [Nat.zero_mul, Nat.zero_div]
    · intro y
      rw [balanceOf_comSaldo_apply, Nat.zero_sub, Nat.add_zero]
      split_ifs with hy
      · rw [hy]
        rfl
      · rfl
    · intro c
      rw [ite_self]
      rfl
    · exact quadro_comSaldo _ _ _
  · have hvotos : s.candidateVotes.getD p 0 ≠ 0 := fun h0 => hvazio (.inl h0)
    unfold distribuirAosVotos at h
    rw [get_bind_run] at h
    obtain ⟨q, hq, h⟩ := lift_bind_eq_ok.mp h
    obtain ⟨_, v, hcredita, h⟩ := bind_eq_ok.mp h
    obtain rfl := creditar_eq_ok hcredita
    rw [get_bind_run] at h
    obtain ⟨_, -, h⟩ := lift_bind_eq_ok.mp h
    have hfim := (EStateM.Result.ok.inj h).2
    unfold partilhar at hq
    obtain ⟨bruto, hbruto, hq⟩ := except_bind_eq_ok.mp hq
    obtain ⟨escala, hescala, hq⟩ := except_bind_eq_ok.mp hq
    obtain ⟨pago, hpago, hq⟩ := except_bind_eq_ok.mp hq
    obtain ⟨rfl, -⟩ := produto_eq_ok.mp hbruto
    obtain ⟨rfl, -⟩ := produto_eq_ok.mp hescala
    obtain ⟨rfl, -⟩ := produto_eq_ok.mp hpago
    obtain rfl := Except.ok.inj hq
    generalize hc : resto * s.commission.getD p Config.defaultCommissionPct / 100 = comissao
      at hfim
    have hle : comissao ≤ resto := by
      rw [← hc]
      have hpct' : s.commission.getD p Config.defaultCommissionPct ≤ 100 := by
        unfold OrdMap.getD
        cases hg : s.commission.get? p with
        | none => decide
        | some pct => exact hpct pct hg
      exact Nat.div_le_of_le_mul (Nat.mul_comm 100 resto ▸ Nat.mul_le_mul_left _ hpct')
    refine ⟨corte, comissao, resto - comissao, _, ?_, ⟨rfl, fun h0 => absurd h0 hvotos, ?_, ?_,
      ?_, ?_⟩⟩
    · rw [Nat.add_assoc, Nat.add_sub_of_le hle]
    · rw [← hfim]
      rfl
    · intro y
      rw [← hfim]
      refine (balanceOf_comSaldo_apply _ _ _ _).trans ?_
      split_ifs with hy
      · rw [hy]
        rfl
      · rfl
    · intro c
      rw [← hfim]
      refine (OrdMap.getD_insert _ _ _ _ _).trans ?_
      split_ifs with hcp
      · rw [hcp]
        rfl
      · rfl
    · rw [← hfim]
      exact quadro_comSaldo _ _ _

/-- The withdrawals of one owner that mature by a height. -/
def maduros (height : ℕ) (dono : String) (fila : List (String × Amount × ℕ)) : ℕ :=
  emUnbonding dono (fila.filter fun u => decide (u.2.2 ≤ height))

theorem creditarTodos_ok {fila : List (String × Amount × ℕ)} (h : creditarTodos fila s = .ok x t) :
    ∀ y, t.balanceOf y = s.balanceOf y + emUnbonding y fila := by
  induction fila generalizing s with
  | nil =>
    obtain ⟨-, rfl⟩ := pure_eq_ok.mp h
    exact fun y => rfl
  | cons saque fila ih =>
    obtain ⟨_, v, hcredita, h⟩ := bind_eq_ok.mp h
    obtain rfl := creditar_eq_ok hcredita
    intro y
    rw [ih h, balanceOf_comSaldo_apply]
    unfold emUnbonding
    rw [List.filter_cons]
    by_cases hy : y = saque.1
    · rw [if_pos hy, if_pos (decide_eq_true hy.symm), List.map_cons, List.sum_cons, hy,
        Nat.add_assoc]
    · rw [if_neg hy, if_neg (mt of_decide_eq_true (Ne.symm hy))]

end

/-! ## Every accepted action -/

/-- The actions with an effect of their own: an accusation, a tick and an emission. -/
def Acao.move : Acao → Prop
  | .transacao tx _ _ => tx.txType = "SLASH_DOUBLE_SIGN"
  | .abre _ => False
  | _ => True

/-- What an accepted action does to the stakes, the queue, the votes and the commissions. -/
inductive PassoDoQuadro (amb : Ambiente) (s : State) : Acao → State → Prop
  | alheio {a : Acao} {t : State} (hfora : ¬ a.move) (h : t.quadro = s.quadro) :
      PassoDoQuadro amb s a t
  | opera {tx : Tx} {height blockTs : ℕ} {t : State} {gb : Peek} {fee : Amount}
      (htipo : tx.txType ≠ "SLASH_DOUBLE_SIGN") (htaxa : apurarTaxa s tx height = .ok (gb, fee))
      (h : MudaQuadro height (taxaDe tx.de fee) (GovTx.Avalizado amb s tx height blockTs) s t) :
      PassoDoQuadro amb s (.transacao tx height blockTs) t
  | pune {tx : Tx} {height blockTs : ℕ} {t : State} {infrator : String} {altura : ℤ}
      {taxa : Amount} (htipo : tx.txType = "SLASH_DOUBLE_SIGN")
      (hacusado : acusadoDe tx = some (infrator, altura)) (h : Punido infrator tx.de taxa s t)
      (hurna : t.urna = s.urna) :
      PassoDoQuadro amb s (.transacao tx height blockTs) t
  | matura {height : ℕ} {t : State} (w : State) (hprop : maturaPropostas height s = .ok ⟨⟩ w)
      (hsaldos : ∀ x, t.balanceOf x = w.balanceOf x + maduros height x s.unbonding)
      (h : t.quadro = { s.quadro with
        fila := s.unbonding.filter fun u => !decide (u.2.2 ≤ height)
        commission := (ativaComissoes height s).commission
        pendingCommission := (ativaComissoes height s).pendingCommission }) :
      PassoDoQuadro amb s (.tick height) t
  | premia {block : Block} {t : State} {reward corte comissao parcela inc : Amount}
      (hreward : s.blockReward block.height = .ok reward)
      (hsoma : corte + comissao + parcela = reward)
      (h : Partilhado block.validator corte comissao parcela inc s t) :
      PassoDoQuadro amb s (.emite block) t

/-- The commissions in force and announced are percentages. -/
structure ComissoesValidas (q : Quadro) : Prop where
  vigente : ∀ v pct, q.commission.get? v = some pct → pct ≤ 100
  pendente : ∀ v c, q.pendingCommission.get? v = some c → c.1 ≤ 100

section

variable {amb : Ambiente} {tx : Tx} {height blockTs : ℕ} {s t : State}

/-- The types that the picture is not alien to. -/
def Tipo.doQuadro : Tipo → Bool
  | stake | unstake | vote | setCommission | claimVoterReward | delegateResource
  | undelegateResource | slashDoubleSign | multisigPropose | multisigApprove => true
  | _ => false

theorem Tipo.fora_do_quadro {tipo : Tipo} (h : tipo.doQuadro = false) :
    (∀ c ∈ tipo.pegada, c ≠ .accounts → c.doQuadro = false) ∧
      ∀ c ∈ tipo.pegadaConta, c ≠ .staked ∧ c ≠ .delegated := by
  revert h
  cases tipo <;> decide

theorem Despacho.quadro_fim {tipo : Tipo} (d : Despacho amb tx tipo height blockTs s t) :
    t.quadro = d.meio.quadro := d.fim_mantem (I := Le State.quadro (· = d.meio.quadro)) rfl

theorem Despacho.opera {tipo : Tipo} (d : Despacho amb tx tipo height blockTs s t)
    (htipo : tx.txType ≠ "SLASH_DOUBLE_SIGN")
    (h : MudaQuadro height (taxaDe tx.de d.fee) (GovTx.Avalizado amb s tx height blockTs) s d.meio) :
    PassoDoQuadro amb s (.transacao tx height blockTs) t := by
  have hsaldos := d.saldos_fim
  cases h with
  | parada h => exact .alheio htipo (d.quadro_fim.trans h)
  | deposita conta valor h => exact .opera htipo d.taxa (.deposita conta valor (d.quadro_fim.trans h))
  | cede conta cedido hcoberto h =>
    exact .opera htipo d.taxa (.cede conta cedido hcoberto (d.quadro_fim.trans h))
  | saca conta valor hpos hcabe hvaga hcoberto h =>
    exact .opera htipo d.taxa (.saca conta valor hpos hcabe hvaga hcoberto (d.quadro_fim.trans h))
  | vota haloc h hestacas hb =>
    refine .opera htipo d.taxa (.vota haloc (h.congr rfl d.quadro_fim) ?_ fun x => ?_)
    · rw [estacas_congr d.quadro_fim, hestacas]
    · rw [hsaldos]
      exact hb x
  | resgata h hestacas hb =>
    refine .opera htipo d.taxa (.resgata (h.congr rfl d.quadro_fim) ?_ fun x => ?_)
    · rw [estacas_congr d.quadro_fim, hestacas]
    · rw [hsaldos]
      exact hb x
  | agenda conta pct hpct h => exact .opera htipo d.taxa (.agenda conta pct hpct (d.quadro_fim.trans h))

theorem Acao.Aceita.pune_quadro (ha : (Acao.transacao tx height blockTs).Aceita amb s t)
    (hs : Lastro s) (htipo : tx.txType = "SLASH_DOUBLE_SIGN") :
    PassoDoQuadro amb s (.transacao tx height blockTs) t := by
  obtain ⟨infrator, altura, gb, taxa, hacusado, -, -, -, hpunido⟩ := punido_de_aceita hs htipo ha
  have hurna : t.urna = s.urna := by
    refine ha.le fun c hc => cego_urna ?_
    have hvm : tx.txType ∉ EavmTx.tipos := by
      rw [htipo]
      decide
    have hdeTexto : Tipo.deTexto tx.txType = some .slashDoubleSign := by
      rw [htipo]
      rfl
    simp only [Acao.pegada, hvm, if_false, hdeTexto, Option.elim_some, Tipo.pegada] at hc
    revert hc
    cases c <;> decide
  exact .pune htipo hacusado hpunido hurna

theorem blockTick_quadro (h : blockTick height s = .ok ⟨⟩ t) :
    PassoDoQuadro amb s (.tick height) t := by
  obtain ⟨_, w, hprop, h⟩ := bind_eq_ok.mp h
  rw [modify_bind_run, modify_bind_run, modify_bind_run] at h
  have hw : w.quadro = s.quadro := Mantem.le (maturaPropostas_mantem height) hprop
  generalize hv : maturaPermissoes height (ativaComissoes height (expiraOpsMultisig height w)) = v
    at h
  have hquadro : v.quadro = { s.quadro with
      commission := (ativaComissoes height s).commission
      pendingCommission := (ativaComissoes height s).pendingCommission } := by
    have hpermissoes := maturaPermissoes_mantem
      (I := Le State.quadro (· = (ativaComissoes height (expiraOpsMultisig height w)).quadro))
      height _ rfl
    rw [← hv]
    refine hpermissoes.trans ?_
    rw [← hw]
    have hcomissao : w.commission = s.commission := congrArg Quadro.commission hw
    have hpendente : w.pendingCommission = s.pendingCommission :=
      congrArg Quadro.pendingCommission hw
    unfold ativaComissoes
    rw [← hcomissao, ← hpendente]
    rfl
  have hcontas : v.accounts = w.accounts := by
    have : Cego State.accounts .permissions := ⟨fun _ => rfl⟩
    have : Cego State.accounts .pendingOps := ⟨fun _ => rfl⟩
    have : Cego State.accounts .pendingPerm := ⟨fun _ => rfl⟩
    rw [← hv]
    exact maturaPermissoes_mantem (I := Le State.accounts (· = w.accounts)) height _ rfl
  unfold maturaUnbonding at h
  rw [get_bind_run, set_bind_run] at h
  have hfila : v.unbonding = s.unbonding := congrArg Quadro.fila hquadro
  have hfim : t.quadro = ({ v with
      unbonding := v.unbonding.filter fun u => !decide (u.2.2 ≤ height) } : State).quadro := by
    have htodos : ∀ {us : List (String × Amount × ℕ)} {u : State}, creditarTodos us u = .ok ⟨⟩ t →
        t.quadro = u.quadro := by
      intro us
      induction us with
      | nil =>
        intro u hu
        obtain ⟨-, rfl⟩ := pure_eq_ok.mp hu
        rfl
      | cons saque us ih =>
        intro u hu
        obtain ⟨_, u', hcredita, hu⟩ := bind_eq_ok.mp hu
        obtain rfl := creditar_eq_ok hcredita
        rw [ih hu, quadro_comSaldo]
    exact htodos h
  refine .matura w hprop (fun x => ?_) ?_
  · rw [creditarTodos_ok h]
    unfold maduros
    rw [hfila]
    congr 1
    change (v.accounts.getD x {}).balance = _
    rw [hcontas]
    rfl
  · rw [hfim, quadro_comFila, hquadro, hfila]

theorem emiteRecompensa_quadro {block : Block}
    (hpct : ∀ pct, s.commission.get? block.validator = some pct → pct ≤ 100)
    (h : emiteRecompensa block s = .ok ⟨⟩ t) : PassoDoQuadro amb s (.emite block) t := by
  unfold emiteRecompensa at h
  rw [get_bind_run] at h
  obtain ⟨reward, hreward, h⟩ := lift_bind_eq_ok.mp h
  obtain ⟨_, u, hdistribui, h⟩ := bind_eq_ok.mp h
  rw [get_bind_run] at h
  obtain ⟨_, -, h⟩ := lift_bind_eq_ok.mp h
  have hfim := (EStateM.Result.ok.inj h).2
  obtain ⟨corte, comissao, parcela, inc, hsoma, hpartilha⟩ := distributeBlockReward_ok hpct hdistribui
  have hfeita : Partilhado block.validator corte comissao parcela inc s t := by
    rw [← hfim]
    exact ⟨hpartilha.inc_eq, hpartilha.comVotos, hpartilha.tesouraria, hpartilha.saldos,
      hpartilha.acumulado, hpartilha.resto⟩
  exact .premia hreward hsoma hfeita

theorem slash_of_deTexto (h : Tipo.deTexto tx.txType = some .slashDoubleSign) :
    tx.txType = "SLASH_DOUBLE_SIGN" := by
  obtain ⟨antes, depois, hnomes, -⟩ := List.lookup_eq_some_iff.mp h
  have hunico : ∀ e ∈ Tipo.nomes, e.2 = .slashDoubleSign → e.1 = "SLASH_DOUBLE_SIGN" := by decide
  exact hunico (tx.txType, .slashDoubleSign) (hnomes ▸ by simp) rfl

theorem alheia_ao_quadro {a : Acao} (ha : a.Aceita amb s t) (hfora : ¬ a.move)
    (hconta : ∀ c ∈ a.pegadaConta, c ≠ .staked ∧ c ≠ .delegated)
    (hpega : ∀ c ∈ a.pegada, c ≠ .accounts → c.doQuadro = false) : PassoDoQuadro amb s a t := by
  refine .alheio hfora (ha.partes (I := Le State.quadro (· = s.quadro)) (fun c hc => ?_)
    (fun c hc hne => ?_) rfl)
  · exact quadro_ignoraConta (hconta c hc).1 (hconta c hc).2
  · have : Alheio c.doQuadro := ⟨hpega c hc hne⟩
    infer_instance

/-- What every accepted action does to the stakes, the queue, the votes and the commissions. -/
theorem Acao.Aceita.passoDoQuadro {a : Acao} (ha : a.Aceita amb s t) (hs : Lastro s)
    (hcomissoes : ComissoesValidas s.quadro) : PassoDoQuadro amb s a t := by
  have hdados := ha
  cases ha with
  | @transacao tx height blockTs s t aplicada hv htx =>
    by_cases hvm : tx.txType ∈ EavmTx.tipos
    · apply alheia_ao_quadro hdados
      · intro hmove
        have htipo : tx.txType = "SLASH_DOUBLE_SIGN" := hmove
        rw [htipo] at hvm
        exact absurd hvm (by decide)
      · dsimp only [Acao.pegadaConta]
        rw [if_pos hvm]
        decide
      · dsimp only [Acao.pegada]
        rw [if_pos hvm]
        decide
    · obtain ⟨tipo, hdeTexto, ⟨d⟩⟩ := despacho_of_aplica hvm htx
      have hoperado : tipo ≠ .slashDoubleSign → tx.txType ≠ "SLASH_DOUBLE_SIGN" := by
        intro hne htipo
        rw [htipo] at hdeTexto
        exact hne (Option.some.inj hdeTexto).symm
      cases hquadro : tipo.doQuadro with
      | false =>
        obtain ⟨hpega, hconta⟩ := Tipo.fora_do_quadro hquadro
        apply alheia_ao_quadro hdados
        · refine hoperado ?_
          rintro rfl
          cases hquadro
        · dsimp only [Acao.pegadaConta]
          rw [if_neg hvm, hdeTexto, Option.elim_some]
          exact List.forall_mem_cons.mpr ⟨by decide, List.forall_mem_cons.mpr ⟨by decide, hconta⟩⟩
        · dsimp only [Acao.pegada]
          rw [if_neg hvm, hdeTexto, Option.elim_some]
          refine List.forall_mem_cons.mpr ⟨fun h => absurd rfl h, ?_⟩
          exact List.forall_mem_cons.mpr ⟨fun _ => rfl, hpega⟩
      | true =>
        have hmaneja := d.maneja
        cases tipo with
        | stake => exact d.opera (hoperado (by decide)) (stake_quadro hmaneja)
        | unstake => exact d.opera (hoperado (by decide)) (unstake_quadro hmaneja)
        | vote => exact d.opera (hoperado (by decide)) (vote_quadro hmaneja)
        | setCommission => exact d.opera (hoperado (by decide)) (setCommission_quadro hmaneja)
        | claimVoterReward => exact d.opera (hoperado (by decide)) (claimVoterReward_quadro hmaneja)
        | delegateResource => exact d.opera (hoperado (by decide)) (delegateResource_quadro hmaneja)
        | undelegateResource =>
          exact d.opera (hoperado (by decide)) (undelegateResource_quadro hmaneja)
        | slashDoubleSign => exact hdados.pune_quadro hs (slash_of_deTexto hdeTexto)
        | multisigPropose =>
          exact d.opera (hoperado (by decide))
            (GovTx.multisigPropose_quadro hdeTexto d.entrada d.taxa hmaneja)
        | multisigApprove =>
          exact d.opera (hoperado (by decide))
            (GovTx.multisigApprove_quadro hdeTexto d.entrada d.taxa hmaneja)
        | _ => cases hquadro
  | tick htick => exact blockTick_quadro htick
  | abre habre =>
    apply alheia_ao_quadro hdados
    · exact id
    · intro c hc
      cases hc
    · dsimp only [Acao.pegada]
      decide
  | emite hemite => exact emiteRecompensa_quadro (hcomissoes.vigente _) hemite

end

end Eav7
