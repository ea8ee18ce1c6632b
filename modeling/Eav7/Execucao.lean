import Eav7.Base.Percurso
import Eav7.Guarda
import Eav7.Historia

/-!
# Runs of the state

Transactions that pass the verification and their handler, and what a block does
around them, as the accepted steps of a run. Every action has a footprint: the
fields of the state that it may write. Whatever reads other fields is the same
before and after it.
-/

namespace Eav7

open Base

variable {I : State → Prop} {amb : Ambiente}

/-! ## The footprint of the permissions -/

theorem retiraOps_mantem [Ignora I .pendingOps] (p : PendingOp → Bool) (s : State) (hs : I s) :
    I (GovTx.retiraOps p s) := escreve .pendingOps hs rfl

theorem aplicarPermissionChange_mantem [Ignora I .permissions] [Ignora I .pendingOps]
    (account : String) (perm : Option Permission) (s : State) (hs : I s) :
    I (GovTx.aplicarPermissionChange account perm s) :=
  retiraOps_mantem _ _ (escreve .permissions hs rfl)

section Permissao

variable [IgnoraConta I .balance] (cr : Cripto) (tx : Tx) (ctx : Ctx)

theorem permissionUpdate_mantem [Ignora I .permissions] :
    Mantem I (GovTx.permissionUpdate cr tx ctx) := by
  refine .get_bind fun s hs => ?_
  repeat with_reducible refine Mantem.lift_bind fun _ => ?_
  refine .bind (cobrarTaxa_mantem _ _) fun _ => ?_
  exact .modify_intro fun s hs => escreve .permissions hs rfl

section Pendente

variable [Ignora I .pendingPerm]

theorem permissionPropose_mantem : Mantem I (GovTx.permissionPropose cr tx ctx) := by
  refine .get_bind fun s hs => ?_
  repeat with_reducible refine Mantem.lift_bind fun _ => ?_
  refine .bind (cobrarTaxa_mantem _ _) fun _ => ?_
  exact .modify_intro fun s hs => escreve .pendingPerm hs rfl

theorem permissionApprove_mantem : Mantem I (GovTx.permissionApprove cr tx ctx) := by
  refine .get_bind fun s hs => ?_
  repeat with_reducible refine Mantem.lift_bind fun _ => ?_
  refine .bind (cobrarTaxa_mantem _ _) fun _ => ?_
  exact .modify_intro fun s hs => escreve .pendingPerm hs rfl

theorem permissionVeto_mantem : Mantem I (GovTx.permissionVeto cr tx ctx) := by
  refine .get_bind fun s hs => ?_
  repeat with_reducible refine Mantem.lift_bind fun _ => ?_
  refine .bind (cobrarTaxa_mantem _ _) fun _ => ?_
  exact .modify_intro fun s hs => escreve .pendingPerm hs rfl

end Pendente

section Operacao

variable [IgnoraConta I .staked] [Ignora I .unbonding] [Ignora I .pendingCommission]
  [RetocaTokens I] [Ignora I .nfts] [Ignora I .votes] [Ignora I .candidateVotes]
  [Ignora I .voterRewardDebt] [Ignora I .proposals] [Ignora I .permissions] [Ignora I .pendingOps]

theorem multisigPropose_mantem : Mantem I (GovTx.multisigPropose cr tx ctx) := by
  refine .get_bind fun s hs => .lift_bind fun p => .bind (cobrarTaxa_mantem _ _) fun _ => ?_
  split
  · exact aplicarOp_mantem cr _ _ _ _ fun perm _ => aplicarPermissionChange_mantem _ perm
  · exact .modify_intro fun s hs => escreve .pendingOps hs rfl

theorem multisigApprove_mantem : Mantem I (GovTx.multisigApprove cr tx ctx) := by
  refine .get_bind fun s hs => .lift_bind fun a => .bind (cobrarTaxa_mantem _ _) fun _ => ?_
  split
  · refine .modify_bind (fun s hs => escreve .pendingOps hs rfl) ?_
    exact aplicarOp_mantem cr _ _ _ _ fun perm _ => aplicarPermissionChange_mantem _ perm
  · exact .modify_intro fun s hs => escreve .pendingOps hs rfl

end Operacao

end Permissao

section Tique

theorem aplicarMudanca_mantem [Ignora I .permissions] [Ignora I .pendingOps] (conta : String)
    (pend : PendingPerm) (s : State) (hs : I s) : I (aplicarMudanca conta pend s) := by
  unfold aplicarMudanca
  split
  · exact hs
  · split
    · split
      · exact retiraOps_mantem _ _ (escreve .permissions hs rfl)
      · exact hs
    · exact hs

theorem maturaPermissoes_mantem [Ignora I .permissions] [Ignora I .pendingOps]
    [Ignora I .pendingPerm] (height : ℕ) (s : State) (hs : I s) : I (maturaPermissoes height s) := by
  unfold maturaPermissoes
  generalize s.pendingPerm.keys = contas
  induction contas generalizing s with
  | nil => exact hs
  | cons conta contas ih =>
    have hconta : I (maturaPermissao height conta s) := by
      unfold maturaPermissao
      split
      · exact hs
      · split_ifs
        · exact aplicarMudanca_mantem _ _ _ (escreve .pendingPerm hs rfl)
        · exact hs
    exact ih _ hconta

theorem blockTick_mantem [IgnoraConta I .balance] [Ignora I .treasury]
    [Ignora I .bridgeSourceCommittees] [Ignora I .aiAttesters] [Ignora I .params]
    [Ignora I .proposals] [Ignora I .commission] [Ignora I .pendingCommission]
    [Ignora I .permissions] [Ignora I .pendingOps] [Ignora I .pendingPerm] [Ignora I .unbonding]
    (height : ℕ) : Mantem I (blockTick height) := by
  refine .bind (maturaPropostas_mantem height) fun _ => ?_
  refine .modify_bind (retiraOps_mantem _) (.modify_bind (ativaComissoes_mantem height) ?_)
  exact .modify_bind (maturaPermissoes_mantem height) (maturaUnbonding_mantem height)

theorem emiteRecompensa_mantem [IgnoraConta I .balance] [Ignora I .treasury]
    [Ignora I .rewardAccPerVote] [Ignora I .totalMinted] (block : Block) :
    Mantem I (emiteRecompensa block) := by
  refine .get_bind fun s hs => .lift_bind fun recompensa => ?_
  refine .bind (distributeBlockReward_mantem _ _) fun _ => .get_bind fun s hs => .lift_bind fun _ => ?_
  exact .modify_intro fun s hs => escreve .totalMinted hs rfl

end Tique

/-! ## The footprint of each handler -/

open Campo in
/-- The fields that the handler of a type may write. -/
def Tipo.pegada : Tipo → List Campo
  | transfer | stake => [accounts]
  | unstake => [accounts, unbonding]
  | vote => [accounts, votes, candidateVotes, voterRewardDebt]
  | setCommission => [accounts, pendingCommission]
  | slashDoubleSign => [accounts, unbonding, Campo.delegations, slashed, totalBurned]
  | delegateResource | undelegateResource => [accounts, Campo.delegations]
  | vestingCreate | vestingClaim => [accounts, Campo.vesting]
  | claimVoterReward => [accounts, voterRewardDebt]
  | tokenCreate | tokenTransfer | tokenApprove | tokenTransferFrom | tokenMint | tokenBurn
  | tokenPause | tokenUnpause | tokenBlacklist | tokenFreeze | tokenUnfreeze | metaTx =>
    [accounts, tokens]
  | nftCreate | nftMint | nftTransfer | nftApprove | nftBurn => [accounts, nfts]
  | nameRegister => [accounts, names, totalBurned]
  | nameUpdate | nameTransfer | nameRelease => [accounts, names]
  | govPropose | govVote => [accounts, proposals]
  | permissionUpdate => [accounts, permissions]
  | permissionPropose | permissionApprove | permissionVeto => [accounts, pendingPerm]
  | multisigPropose | multisigApprove =>
    [accounts, unbonding, pendingCommission, tokens, nfts, votes, candidateVotes, voterRewardDebt,
      proposals, permissions, pendingOps]
  | oracleRegister => [accounts, oracles]
  | aiTask | aiChallenge | aiBid | aiAward | aiCommit => [accounts, aiTasks]
  | aiResult | aiClaim | aiVerdict | aiReveal | aiRefund => [accounts, aiTasks, oracles]
  | bridgeIn | bridgeOut => [accounts, tokens, bridge]
  | bridgeSettle => [bridge]
  | bridgeCommitteeUpdate => [accounts, bridgeSourceCommittees]

open CampoConta in
/-- The parts of the accounts that the handler of a type may write. -/
def Tipo.pegadaConta : Tipo → List CampoConta
  | bridgeSettle => []
  | stake => [balance, staked, eavmManaged]
  | unstake | multisigPropose | multisigApprove => [balance, staked]
  | slashDoubleSign => [balance, staked, delegated]
  | delegateResource | undelegateResource => [balance, delegated]
  | metaTx => [balance, nonce]
  | _ => [balance]

theorem Tipo.contas_of_pegadaConta {tipo : Tipo} {c : CampoConta} (h : c ∈ tipo.pegadaConta) :
    .accounts ∈ tipo.pegada := by
  cases tipo <;> first | exact List.mem_cons_self | cases h

section Manipulador

variable (tx : Tx) (ctx : Ctx)

/-- But for the creation of a token, a handler writes only to the tokens there are, and
to its parts of the accounts. -/
theorem manipulador_contas {tipo : Tipo} (hcriar : tipo ≠ .tokenCreate)
    (htokens : .tokens ∈ tipo.pegada → RetocaTokens I)
    (hcontas : ∀ c ∈ tipo.pegadaConta, IgnoraConta I c)
    (hresto : ∀ c ∈ tipo.pegada, c ≠ .accounts → c ≠ .tokens → Ignora I c) :
    Mantem I (manipulador amb tx ctx tipo) := by
  have h : ∀ c ∈ tipo.pegada, (c ≠ .accounts ∧ c ≠ .tokens) → Ignora I c := fun c hc hne =>
    hresto c hc hne.1 hne.2
  by_cases hsettle : tipo = .bridgeSettle
  · subst hsettle
    have := h .bridge (by decide) (by decide)
    exact bridgeSettle_mantem tx ctx
  have hsaldo : IgnoraConta I .balance := by
    refine hcontas .balance ?_
    cases tipo <;> first | exact absurd rfl hsettle | exact List.mem_cons_self
  cases tipo with
  | transfer => exact transfer_mantem tx ctx
  | stake =>
    have := hcontas .staked (by decide)
    have := hcontas .eavmManaged (by decide)
    exact stake_mantem tx ctx
  | unstake =>
    have := hcontas .staked (by decide)
    have := h .unbonding (by decide) (by decide)
    exact unstake_mantem tx ctx
  | vote =>
    have := h .votes (by decide) (by decide)
    have := h .candidateVotes (by decide) (by decide)
    have := h .voterRewardDebt (by decide) (by decide)
    exact vote_mantem _ tx ctx
  | setCommission =>
    have := h .pendingCommission (by decide) (by decide)
    exact setCommission_mantem tx ctx
  | slashDoubleSign =>
    have := hcontas .staked (by decide)
    have := hcontas .delegated (by decide)
    have := h .unbonding (by decide) (by decide)
    have := h .delegations (by decide) (by decide)
    have := h .slashed (by decide) (by decide)
    have := h .totalBurned (by decide) (by decide)
    exact slashDoubleSign_mantem _ tx ctx
  | delegateResource =>
    have := hcontas .delegated (by decide)
    have := h .delegations (by decide) (by decide)
    exact delegateResource_mantem _ tx ctx
  | undelegateResource =>
    have := hcontas .delegated (by decide)
    have := h .delegations (by decide) (by decide)
    exact undelegateResource_mantem _ tx ctx
  | vestingCreate =>
    have := h .vesting (by decide) (by decide)
    exact vestingCreate_mantem _ tx ctx
  | vestingClaim =>
    have := h .vesting (by decide) (by decide)
    exact vestingClaim_mantem tx ctx
  | claimVoterReward =>
    have := h .voterRewardDebt (by decide) (by decide)
    exact claimVoterReward_mantem _ tx ctx
  | tokenCreate => exact absurd rfl hcriar
  | tokenTransfer =>
    have := htokens (by decide)
    exact transferir_mantem _ tx ctx
  | tokenApprove =>
    have := htokens (by decide)
    exact aprovar_mantem _ tx ctx
  | tokenTransferFrom =>
    have := htokens (by decide)
    exact transferirDe_mantem _ tx ctx
  | tokenMint =>
    have := htokens (by decide)
    exact emitir_mantem _ tx ctx
  | tokenBurn =>
    have := htokens (by decide)
    exact queimarToken_mantem tx ctx
  | tokenPause =>
    have := htokens (by decide)
    exact pausar_mantem tx ctx
  | tokenUnpause =>
    have := htokens (by decide)
    exact pausar_mantem tx ctx
  | tokenBlacklist =>
    have := htokens (by decide)
    exact bloquear_mantem _ tx ctx
  | tokenFreeze =>
    have := htokens (by decide)
    exact congelar_mantem tx ctx
  | tokenUnfreeze =>
    have := htokens (by decide)
    exact descongelar_mantem tx ctx
  | nftCreate =>
    have := h .nfts (by decide) (by decide)
    exact nftCreate_mantem _ tx ctx
  | nftMint =>
    have := h .nfts (by decide) (by decide)
    exact nftMint_mantem _ tx ctx
  | nftTransfer =>
    have := h .nfts (by decide) (by decide)
    exact nftTransfer_mantem _ tx ctx
  | nftApprove =>
    have := h .nfts (by decide) (by decide)
    exact nftApprove_mantem _ tx ctx
  | nftBurn =>
    have := h .nfts (by decide) (by decide)
    exact nftBurn_mantem tx ctx
  | nameRegister =>
    have := h .names (by decide) (by decide)
    have := h .totalBurned (by decide) (by decide)
    exact nameRegister_mantem _ tx ctx
  | nameUpdate =>
    have := h .names (by decide) (by decide)
    exact nameUpdate_mantem _ tx ctx
  | nameTransfer =>
    have := h .names (by decide) (by decide)
    exact nameTransfer_mantem _ tx ctx
  | nameRelease =>
    have := h .names (by decide) (by decide)
    exact nameRelease_mantem tx ctx
  | govPropose =>
    have := h .proposals (by decide) (by decide)
    exact govPropose_mantem _ tx ctx
  | govVote =>
    have := h .proposals (by decide) (by decide)
    exact govVote_mantem tx ctx
  | permissionUpdate =>
    have := h .permissions (by decide) (by decide)
    exact permissionUpdate_mantem _ tx ctx
  | permissionPropose =>
    have := h .pendingPerm (by decide) (by decide)
    exact permissionPropose_mantem _ tx ctx
  | permissionApprove =>
    have := h .pendingPerm (by decide) (by decide)
    exact permissionApprove_mantem _ tx ctx
  | permissionVeto =>
    have := h .pendingPerm (by decide) (by decide)
    exact permissionVeto_mantem _ tx ctx
  | multisigPropose =>
    have := hcontas .staked (by decide)
    have := h .unbonding (by decide) (by decide)
    have := h .pendingCommission (by decide) (by decide)
    have := htokens (by decide)
    have := h .nfts (by decide) (by decide)
    have := h .votes (by decide) (by decide)
    have := h .candidateVotes (by decide) (by decide)
    have := h .voterRewardDebt (by decide) (by decide)
    have := h .proposals (by decide) (by decide)
    have := h .permissions (by decide) (by decide)
    have := h .pendingOps (by decide) (by decide)
    exact multisigPropose_mantem _ tx ctx
  | multisigApprove =>
    have := hcontas .staked (by decide)
    have := h .unbonding (by decide) (by decide)
    have := h .pendingCommission (by decide) (by decide)
    have := htokens (by decide)
    have := h .nfts (by decide) (by decide)
    have := h .votes (by decide) (by decide)
    have := h .candidateVotes (by decide) (by decide)
    have := h .voterRewardDebt (by decide) (by decide)
    have := h .proposals (by decide) (by decide)
    have := h .permissions (by decide) (by decide)
    have := h .pendingOps (by decide) (by decide)
    exact multisigApprove_mantem _ tx ctx
  | metaTx =>
    have := hcontas .nonce (by decide)
    have := htokens (by decide)
    exact metaTx_mantem tx ctx amb
  | oracleRegister =>
    have := h .oracles (by decide) (by decide)
    exact oracleRegister_mantem tx ctx
  | aiTask =>
    have := h .aiTasks (by decide) (by decide)
    exact aiTask_mantem tx ctx _
  | aiResult =>
    have := h .aiTasks (by decide) (by decide)
    have := h .oracles (by decide) (by decide)
    exact aiResult_mantem tx ctx _
  | aiClaim =>
    have := h .aiTasks (by decide) (by decide)
    have := h .oracles (by decide) (by decide)
    exact aiClaim_mantem tx ctx
  | aiChallenge =>
    have := h .aiTasks (by decide) (by decide)
    exact aiChallenge_mantem tx ctx
  | aiVerdict =>
    have := h .aiTasks (by decide) (by decide)
    have := h .oracles (by decide) (by decide)
    exact aiVerdict_mantem tx ctx
  | aiBid =>
    have := h .aiTasks (by decide) (by decide)
    exact aiBid_mantem tx ctx
  | aiAward =>
    have := h .aiTasks (by decide) (by decide)
    exact aiAward_mantem tx ctx
  | aiCommit =>
    have := h .aiTasks (by decide) (by decide)
    exact aiCommit_mantem tx ctx
  | aiReveal =>
    have := h .aiTasks (by decide) (by decide)
    have := h .oracles (by decide) (by decide)
    exact aiReveal_mantem tx ctx _
  | aiRefund =>
    have := h .aiTasks (by decide) (by decide)
    have := h .oracles (by decide) (by decide)
    exact aiRefund_mantem tx ctx
  | bridgeIn =>
    have := htokens (by decide)
    have := h .bridge (by decide) (by decide)
    exact bridgeIn_mantem _ tx ctx
  | bridgeOut =>
    have := htokens (by decide)
    have := h .bridge (by decide) (by decide)
    exact bridgeOut_mantem _ tx ctx
  | bridgeSettle => exact absurd rfl hsettle
  | bridgeCommitteeUpdate =>
    have := h .bridgeSourceCommittees (by decide) (by decide)
    exact committeeUpdate_mantem _ tx ctx

/-- But for the creation of a token, a handler writes only to the tokens there are. -/
theorem manipulador_retoca {tipo : Tipo} (hcriar : tipo ≠ .tokenCreate)
    (htokens : .tokens ∈ tipo.pegada → RetocaTokens I)
    (h : ∀ c ∈ tipo.pegada, c ≠ .tokens → Ignora I c) :
    Mantem I (manipulador amb tx ctx tipo) := by
  refine manipulador_contas tx ctx hcriar htokens (fun c hc => ?_) fun c hc _ ht => h c hc ht
  have := h .accounts (Tipo.contas_of_pegadaConta hc) (by decide)
  infer_instance

/-- A handler keeps whatever does not look at its parts of the accounts nor at the rest
of its footprint. -/
theorem manipulador_partes {tipo : Tipo} (hcontas : ∀ c ∈ tipo.pegadaConta, IgnoraConta I c)
    (h : ∀ c ∈ tipo.pegada, c ≠ .accounts → Ignora I c) :
    Mantem I (manipulador amb tx ctx tipo) := by
  by_cases hcriar : tipo = .tokenCreate
  · subst hcriar
    have := hcontas .balance (by decide)
    have := h .tokens (by decide) (by decide)
    exact criar_mantem _ tx ctx
  · refine manipulador_contas tx ctx hcriar (fun ht => ?_) hcontas fun c hc hne _ => h c hc hne
    have := h .tokens ht (by decide)
    infer_instance

/-- A handler keeps whatever does not look at its footprint. -/
theorem manipulador_pegada {tipo : Tipo} (h : ∀ c ∈ tipo.pegada, Ignora I c) :
    Mantem I (manipulador amb tx ctx tipo) := by
  refine manipulador_partes tx ctx (fun c hc => ?_) fun c hc _ => h c hc
  have := h .accounts (Tipo.contas_of_pegadaConta hc)
  infer_instance

end Manipulador

/-! ## Accepted actions -/

namespace Acao

def height : Acao → ℕ
  | .transacao _ height _ => height
  | .tick height => height
  | .abre block => block.height
  | .emite block => block.height

/-- The transaction of an action. -/
def tx? : Acao → Option Tx
  | .transacao tx _ _ => some tx
  | _ => none

/-- The type that the common dispatch of a transaction finds. -/
def tipo? (a : Acao) : Option Tipo :=
  a.tx?.bind fun tx => if tx.txType ∈ EavmTx.tipos then none else Tipo.deTexto tx.txType

/-- A step that goes through: a transaction is verified before it is applied. -/
inductive Aceita (amb : Ambiente) : Acao → State → State → Prop
  | transacao {tx : Tx} {height blockTs : ℕ} {s t : State} {aplicada : AppliedTx}
      (hv : amb.verifyTransaction tx = .ok ())
      (h : applyTransaction amb tx height blockTs s = .ok aplicada t) :
      Aceita amb (.transacao tx height blockTs) s t
  | tick {height : ℕ} {s t : State} (h : blockTick height s = .ok ⟨⟩ t) :
      Aceita amb (.tick height) s t
  | abre {block : Block} {blockTs : ℕ} {s t : State} (h : abreBloco block s = .ok blockTs t) :
      Aceita amb (.abre block) s t
  | emite {block : Block} {s t : State} (h : emiteRecompensa block s = .ok ⟨⟩ t) :
      Aceita amb (.emite block) s t

open CampoConta in
/-- The parts of the accounts that an action may write. -/
def pegadaConta : Acao → List CampoConta
  | .transacao tx _ _ =>
    if tx.txType ∈ EavmTx.tipos then [balance, quota, nonce]
    else nonce :: quota :: (Tipo.deTexto tx.txType).elim [] Tipo.pegadaConta
  | .tick _ | .emite _ => [balance]
  | .abre _ => []

open Campo in
/-- The fields that an action may write. -/
def pegada : Acao → List Campo
  | .transacao tx _ _ =>
    if tx.txType ∈ EavmTx.tipos then [accounts, contracts, totalBurned]
    else accounts :: totalBurned :: (Tipo.deTexto tx.txType).elim [] Tipo.pegada
  | .tick _ => [accounts, treasury, bridgeSourceCommittees, aiAttesters, params, proposals,
      commission, pendingCommission, permissions, pendingOps, pendingPerm, unbonding]
  | .abre _ => [contracts]
  | .emite _ => [accounts, treasury, rewardAccPerVote, totalMinted]

end Acao

/-- What a transaction of the common dispatch went through: its guards, its fee, its
handler and the epilogue. -/
structure Despacho (amb : Ambiente) (tx : Tx) (tipo : Tipo) (height blockTs : ℕ) (s t : State)
    where
  recebido : ℕ
  gb : Peek
  fee : Amount
  meio : State
  entrada : conferirEntrada s tx = .ok recebido
  taxa : apurarTaxa s tx height = .ok (gb, fee)
  maneja : manipulador amb tx ⟨height, blockTs, fee⟩ tipo s = .ok ⟨⟩ meio
  fim : ∃ burned, t = { meio.comConta tx.de fun c => commitGb height gb { c with nonce := recebido }
    with totalBurned := burned }

section

variable {tx : Tx} {height blockTs : ℕ} {s t : State}

theorem queimarTaxa_eq_ok {fee : Amount} {u : Unit} (h : queimarTaxa fee s = .ok u t) :
    t = { s with totalBurned := s.totalBurned + fee } := by
  unfold queimarTaxa at h
  rw [get_bind_run] at h
  obtain ⟨queimado, v, hsoma, h⟩ := bind_eq_ok.mp h
  obtain ⟨hsoma, rfl⟩ := lift_eq_ok.mp hsoma
  obtain ⟨rfl, -⟩ := soma_eq_ok.mp hsoma
  exact (EStateM.Result.ok.inj h).2.symm

/-- An accepted transaction outside the virtual machine was dispatched to a type. -/
theorem despacho_of_aplica {aplicada : AppliedTx} (htipo : tx.txType ∉ EavmTx.tipos)
    (h : applyTransaction amb tx height blockTs s = .ok aplicada t) :
    ∃ tipo, Tipo.deTexto tx.txType = some tipo ∧
      Nonempty (Despacho amb tx tipo height blockTs s t) := by
  unfold applyTransaction at h
  rw [get_bind_run] at h
  obtain ⟨recebido, u, hentrada, h⟩ := bind_eq_ok.mp h
  obtain ⟨hentrada, rfl⟩ := lift_eq_ok.mp hentrada
  rw [if_neg htipo] at h
  unfold aplicarNativa at h
  obtain ⟨r, u, htaxa, h⟩ := bind_eq_ok.mp h
  obtain ⟨htaxa, rfl⟩ := lift_eq_ok.mp htaxa
  obtain ⟨gb, fee⟩ := r
  obtain ⟨⟨⟩, meio, hmaneja, h⟩ := bind_eq_ok.mp h
  rw [modify_bind_run] at h
  obtain ⟨_, v, hqueima, h⟩ := bind_eq_ok.mp h
  obtain ⟨-, rfl⟩ := pure_eq_ok.mp h
  have hfim := queimarTaxa_eq_ok hqueima
  unfold despachar at hmaneja
  cases hdeTexto : Tipo.deTexto tx.txType with
  | some tipo =>
    rw [hdeTexto] at hmaneja
    exact ⟨tipo, rfl, ⟨⟨recebido, gb, fee, meio, hentrada, htaxa, hmaneja, _, hfim⟩⟩⟩
  | none =>
    rw [hdeTexto] at hmaneja
    cases (lift_eq_ok.mp hmaneja).1

/-- What does not look at the nonces, at the quotas nor at what was burned sees the
handler only. -/
theorem Despacho.fim_mantem {tipo : Tipo} (d : Despacho amb tx tipo height blockTs s t)
    [IgnoraConta I .nonce] [IgnoraConta I .quota] [Ignora I .totalBurned] (h : I d.meio) : I t := by
  obtain ⟨burned, hfim⟩ := d.fim
  have hconta := fechaConta_mantem tx.de height d.recebido d.gb d.meio h
  rw [hfim]
  exact escreve .totalBurned hconta rfl

end

/-- An accepted action keeps whatever does not look at its parts of the accounts nor at
the rest of its footprint. -/
theorem Acao.Aceita.partes {a : Acao} {s t : State} (ha : a.Aceita amb s t)
    (hcontas : ∀ c ∈ a.pegadaConta, IgnoraConta I c)
    (h : ∀ c ∈ a.pegada, c ≠ .accounts → Ignora I c) (hs : I s) : I t := by
  cases ha with
  | transacao hv htx =>
    rename_i tx height blockTs aplicada
    dsimp only [Acao.pegada, Acao.pegadaConta] at h hcontas
    by_cases hvm : tx.txType ∈ EavmTx.tipos
    · rw [if_pos hvm] at h hcontas
      have := hcontas .balance (by decide)
      have := hcontas .quota (by decide)
      have := hcontas .nonce (by decide)
      have := h .contracts (by decide) (by decide)
      have := h .totalBurned (by decide) (by decide)
      unfold applyTransaction at htx
      rw [get_bind_run] at htx
      obtain ⟨recebido, u, hentrada, htx⟩ := bind_eq_ok.mp htx
      obtain ⟨-, rfl⟩ := lift_eq_ok.mp hentrada
      rw [if_pos hvm] at htx
      exact (aplicarEavm_mantem tx _ _ _).ok hs htx
    · rw [if_neg hvm] at h hcontas
      obtain ⟨tipo, hdeTexto, ⟨d⟩⟩ := despacho_of_aplica hvm htx
      rw [hdeTexto] at h hcontas
      have := hcontas .nonce List.mem_cons_self
      have := hcontas .quota (List.mem_cons_of_mem _ List.mem_cons_self)
      have := h .totalBurned (List.mem_cons_of_mem _ List.mem_cons_self) (by decide)
      refine d.fim_mantem ((manipulador_partes tx _ (fun c hc => ?_) fun c hc => ?_).ok hs d.maneja)
      · exact hcontas c (List.mem_cons_of_mem _ (List.mem_cons_of_mem _ hc))
      · exact h c (List.mem_cons_of_mem _ (List.mem_cons_of_mem _ hc))
  | tick htick =>
    dsimp only [Acao.pegada, Acao.pegadaConta] at h hcontas
    have := hcontas .balance (by decide)
    have := h .treasury (by decide) (by decide)
    have := h .bridgeSourceCommittees (by decide) (by decide)
    have := h .aiAttesters (by decide) (by decide)
    have := h .params (by decide) (by decide)
    have := h .proposals (by decide) (by decide)
    have := h .commission (by decide) (by decide)
    have := h .pendingCommission (by decide) (by decide)
    have := h .permissions (by decide) (by decide)
    have := h .pendingOps (by decide) (by decide)
    have := h .pendingPerm (by decide) (by decide)
    have := h .unbonding (by decide) (by decide)
    exact (blockTick_mantem _).ok hs htick
  | abre habre =>
    dsimp only [Acao.pegada] at h
    have := h .contracts (by decide) (by decide)
    exact (abreBloco_mantem _).ok hs habre
  | emite hemite =>
    dsimp only [Acao.pegada, Acao.pegadaConta] at h hcontas
    have := hcontas .balance (by decide)
    have := h .treasury (by decide) (by decide)
    have := h .rewardAccPerVote (by decide) (by decide)
    have := h .totalMinted (by decide) (by decide)
    exact (emiteRecompensa_mantem _).ok hs hemite

theorem Acao.contas_of_pegadaConta {a : Acao} {c : CampoConta} (h : c ∈ a.pegadaConta) :
    .accounts ∈ a.pegada := by
  cases a with
  | transacao tx height blockTs =>
    dsimp only [Acao.pegada]
    split_ifs <;> exact List.mem_cons_self
  | tick => exact List.mem_cons_self
  | abre => cases h
  | emite => exact List.mem_cons_self

/-- An accepted action keeps whatever does not look at its footprint. -/
theorem Acao.Aceita.pegada {a : Acao} {s t : State} (ha : a.Aceita amb s t)
    (h : ∀ c ∈ a.pegada, Ignora I c) (hs : I s) : I t := by
  refine ha.partes (fun c hc => ?_) (fun c hc _ => h c hc) hs
  have := h .accounts (Acao.contas_of_pegadaConta hc)
  infer_instance

theorem Acao.pegada_of_tipo {a : Acao} {tipo : Tipo} (h : a.tipo? = some tipo) :
    tipo.pegada ⊆ a.pegada := by
  obtain ⟨tx, htx, htipo⟩ := Option.bind_eq_some_iff.mp h
  cases a <;> cases htx
  split_ifs at htipo with hvm
  intro c hc
  simp [Acao.pegada, hvm, htipo, hc]

/-- The fields that only the handlers of transactions write. -/
def Campo.doManipulador : Campo → Bool
  | tokens | nfts | names | oracles | aiTasks | bridge | Campo.delegations | Campo.vesting
  | votes | candidateVotes | slashed | voterRewardDebt => true
  | _ => false

/-- An accepted action that may write such a field was dispatched to a type. -/
theorem Acao.Aceita.despacho {a : Acao} {s t : State} (ha : a.Aceita amb s t) {c : Campo}
    (hc : c.doManipulador = true) (h : c ∈ a.pegada) :
    ∃ tx height blockTs tipo, a = .transacao tx height blockTs ∧ a.tipo? = some tipo ∧
      Nonempty (Despacho amb tx tipo height blockTs s t) := by
  cases ha with
  | transacao hv htx =>
    rename_i tx height blockTs aplicada
    by_cases hvm : tx.txType ∈ EavmTx.tipos
    · simp only [Acao.pegada, hvm, if_true] at h
      cases c <;> simp_all [Campo.doManipulador]
    · obtain ⟨tipo, hdeTexto, hd⟩ := despacho_of_aplica hvm htx
      exact ⟨tx, height, blockTs, tipo, rfl, by simp [Acao.tipo?, Acao.tx?, hvm, hdeTexto], hd⟩
  | tick => cases c <;> simp_all [Acao.pegada, Campo.doManipulador]
  | abre => cases c <;> simp_all [Acao.pegada, Campo.doManipulador]
  | emite => cases c <;> simp_all [Acao.pegada, Campo.doManipulador]

/-- An accepted action of a type was dispatched to it. -/
theorem Acao.Aceita.despacho_of_tipo {a : Acao} {s t : State} (ha : a.Aceita amb s t) {tx : Tx}
    {tipo : Tipo} (htx : a.tx? = some tx) (htipo : a.tipo? = some tipo) :
    ∃ height blockTs, a = .transacao tx height blockTs ∧
      Nonempty (Despacho amb tx tipo height blockTs s t) := by
  cases ha with
  | transacao hv h =>
    rename_i tx' height blockTs aplicada
    obtain rfl : tx' = tx := Option.some.inj htx
    simp only [Acao.tipo?, Acao.tx?, Option.bind_some] at htipo
    split_ifs at htipo with hvm
    obtain ⟨tipo', hdeTexto, hd⟩ := despacho_of_aplica hvm h
    obtain rfl : tipo' = tipo := Option.some.inj (hdeTexto.symm.trans htipo)
    exact ⟨height, blockTs, rfl, hd⟩
  | tick => cases htx
  | abre => cases htx
  | emite => cases htx

/-! ## Reading the state -/

/-- A reading that the blanking of a field does not change. -/
class Cego {α : Type} (π : State → α) (c : Campo) : Prop where
  cego : ∀ s, π (c.apaga s) = π s

/-- A property of what is read. -/
def Le {α : Type} (π : State → α) (P : α → Prop) (s : State) : Prop := P (π s)

instance {α : Type} (π : State → α) (c : Campo) [h : Cego π c] (P : α → Prop) :
    Ignora (Le π P) c where
  congr {s t} heq hs := by
    have hπ : π t = π s := by rw [← h.cego t, ← h.cego s, heq]
    exact (congrArg P hπ).mpr hs

section Leitura

variable {α : Type} {π : State → α} {s t : State}

/-- What keeps every property of a reading does not change it. -/
theorem Mantem.le {β : Type} {m : Op β} {b : β} (h : Mantem (Le π (· = π s)) m)
    (hm : m s = .ok b t) : π t = π s := h.ok (rfl : Le π (· = π s) s) hm

/-- A reading outside the footprint of an action is the same after it. -/
theorem Acao.Aceita.le {a : Acao} (ha : a.Aceita amb s t) (h : ∀ c ∈ a.pegada, Cego π c) :
    π t = π s := by
  refine ha.pegada (I := Le π (· = π s)) (fun c hc => ?_) rfl
  have := h c hc
  infer_instance

theorem manipulador_le {tx : Tx} {ctx : Ctx} {tipo : Tipo}
    (hm : manipulador amb tx ctx tipo s = .ok ⟨⟩ t) (h : ∀ c ∈ tipo.pegada, Cego π c) :
    π t = π s := by
  refine Mantem.le (manipulador_pegada tx ctx fun c hc => ?_) hm
  have := h c hc
  infer_instance

theorem Despacho.le {tx : Tx} {tipo : Tipo} {height blockTs : ℕ}
    (d : Despacho amb tx tipo height blockTs s t) [Cego π .accounts] [Cego π .totalBurned] :
    π t = π d.meio :=
  d.fim_mantem (I := Le π (· = π d.meio)) rfl

end Leitura

/-! ## Runs -/

/-- A run of accepted actions. -/
abbrev Execucao (amb : Ambiente) : State → List (State × Acao) → State → Prop :=
  Percurso (Acao.Aceita amb)

/-- A state that the allocations of a genesis make. -/
def Genese (amb : Ambiente) (s₀ : State) : Prop :=
  ∃ alocacoes, applyGenesis amb.cripto alocacoes {} = .ok ⟨⟩ s₀

/-- The genesis writes accounts, relayers, committees and vesting. -/
theorem Genese.le {α : Type} {π : State → α} [Cego π .accounts] [Cego π .bridgeRelayers]
    [Cego π .vesting] [Cego π .bridgeSourceCommittees] {s₀ : State} (h : Genese amb s₀) :
    π s₀ = π {} := by
  obtain ⟨alocacoes, h⟩ := h
  exact Mantem.le (applyGenesis_mantem amb.cripto alocacoes) h

/-- The heights of a run never go down. -/
def EmOrdem (passado : List (State × Acao)) : Prop :=
  passado.Pairwise fun depois antes => antes.2.height ≤ depois.2.height

def Acao.id? (a : Acao) : Option String := a.tx?.map fun tx => tx.id.getD "?"

/-- The ids of the transactions of a run, the newest first. -/
def idsDaExecucao (passado : List (State × Acao)) : List String := passado.filterMap (·.2.id?)

/-! ## Blocks make runs -/

section Blocos

variable {c : Blockchain} {s t : State}

theorem simulateTxs_execucao {height blockTs : ℕ} {txs : List Tx} {vistas : List String}
    {recibos : Recibos}
    (h : c.simulateTxs amb height blockTs vistas txs s = .ok recibos t) :
    (∃ passado, Execucao amb s passado t ∧
      passado.map Prod.snd = (txs.map (Acao.transacao · height blockTs)).reverse) ∧
      (txs.map (·.id.getD "?")).Nodup ∧ ∀ tx ∈ txs, tx.id.getD "?" ∉ vistas := by
  induction txs generalizing vistas s recibos with
  | nil =>
    obtain ⟨-, rfl⟩ := pure_eq_ok.mp h
    exact ⟨⟨[], .inicio, rfl⟩, List.nodup_nil, by simp⟩
  | cons tx txs ih =>
    rw [Blockchain.simulateTxs] at h
    obtain ⟨_, u, hu, h₁⟩ := bind_eq_ok.mp h
    obtain ⟨hconf, rfl⟩ := lift_eq_ok.mp hu
    obtain ⟨aplicada, v, htx, h₂⟩ := bind_eq_ok.mp h₁
    obtain ⟨resto, w, hresto, h₃⟩ := bind_eq_ok.mp h₂
    obtain ⟨-, rfl⟩ := pure_eq_ok.mp h₃
    obtain ⟨_, hv, hdup⟩ := except_bind_eq_ok.mp hconf
    have hdup := recusar_eq_ok.mp hdup
    have hverifica : amb.verifyTransaction tx = .ok () := by
      cases hve : amb.verifyTransaction tx with
      | ok _ => rfl
      | error e => rw [hve] at hv; cases hv
    obtain ⟨⟨passado, hp, hacoes⟩, hnodup, hvistas⟩ := ih hresto
    refine ⟨⟨passado ++ [(u, .transacao tx height blockTs)], ?_, ?_⟩, ?_, ?_⟩
    · exact (Percurso.umPasso (.transacao hverifica htx)).append hp
    · rw [List.map_append, hacoes]
      simp
    · rw [List.map_cons, List.nodup_cons]
      refine ⟨fun hmem => ?_, hnodup⟩
      obtain ⟨tx', htx', heq⟩ := List.mem_map.mp hmem
      exact hvistas tx' htx' (heq ▸ List.mem_cons_self)
    · intro tx' htx' hmem
      rcases List.mem_cons.mp htx' with rfl | htx'
      · exact hdup (.inl hmem)
      · exact hvistas tx' htx' (List.mem_cons_of_mem _ hmem)

/-- A simulated block is a run of its actions. -/
theorem simulate_execucao {block : Block} {recibos : Recibos}
    (h : c.simulate amb block s = .ok recibos t) :
    ∃ passado, Execucao amb s passado t ∧ passado.map Prod.snd = acoesDoBloco block := by
  obtain ⟨blockTs, u, habre, h⟩ := bind_eq_ok.mp h
  obtain ⟨rs, v, htxs, h⟩ := bind_eq_ok.mp h
  obtain ⟨_, w, hfecha, h⟩ := bind_eq_ok.mp h
  obtain ⟨-, rfl⟩ := pure_eq_ok.mp h
  obtain rfl := abreBloco_eq_ok habre
  obtain ⟨⟨passado, hp, hacoes⟩, -, -⟩ := simulateTxs_execucao htxs
  rw [fechaBloco_eq] at hfecha
  obtain ⟨_, w', hemite, htick⟩ := bind_eq_ok.mp hfecha
  have hantes := (Percurso.umPasso (.abre habre)).append hp
  refine ⟨_, (hantes.segue (.emite hemite)).segue (.tick htick), ?_⟩
  unfold acoesDoBloco
  simp [hacoes]

/-- Blocks accepted one after another, the newest first: each is above the earlier
ones and its chain knows the ids that they used. -/
inductive Empilha (amb : Ambiente) (s₀ : State) : List Block → State → Prop
  | inicio : Empilha amb s₀ [] s₀
  | bloco {bs : List Block} {s t : State} {c : Blockchain} {block : Block}
      {recibos : Recibos} (h : Empilha amb s₀ bs s)
      (haltura : ∀ b ∈ bs, b.height < block.height)
      (hids : ∀ b ∈ bs, ∀ tx ∈ b.transactions, c.txIndex.contains (tx.id.getD "?") = true)
      (hsim : c.simulate amb block s = .ok recibos t) : Empilha amb s₀ (block :: bs) t

theorem height_of_mem_acoesDoBloco {block : Block} {a : Acao} (h : a ∈ acoesDoBloco block) :
    a.height = block.height := by
  simp only [acoesDoBloco, List.mem_cons, List.mem_append, List.mem_reverse, List.mem_map,
    List.not_mem_nil, or_false] at h
  rcases h with rfl | rfl | ⟨tx, -, rfl⟩ | rfl <;> rfl

theorem ids_acoesDoBloco (block : Block) :
    (acoesDoBloco block).filterMap Acao.id? =
      (block.transactions.map (·.id.getD "?")).reverse := by
  have htxs : ∀ txs : List Tx, (txs.map (Acao.transacao · block.height
      block.timestamp.toNat)).filterMap Acao.id? = txs.map (·.id.getD "?") := by
    intro txs
    induction txs with
    | nil => rfl
    | cons tx txs ih => exact congrArg (_ :: ·) ih
  unfold acoesDoBloco
  rw [List.filterMap_cons_none rfl, List.filterMap_cons_none rfl, List.filterMap_append,
    List.filterMap_reverse, htxs]
  exact List.append_nil _

/-- A block uses no id twice and none that its chain knows. -/
theorem ids_of_simulate {block : Block} {recibos : Recibos}
    (h : c.simulate amb block s = .ok recibos t) :
    (block.transactions.map (·.id.getD "?")).Nodup ∧
      ∀ tx ∈ block.transactions, c.txIndex.contains (tx.id.getD "?") = false := by
  obtain ⟨blockTs, u, -, h⟩ := bind_eq_ok.mp h
  obtain ⟨rs, v, htxs, -⟩ := bind_eq_ok.mp h
  refine ⟨(simulateTxs_execucao htxs).2.1, fun tx htx => ?_⟩
  exact OrdMap.contains_eq_false.mpr (Blockchain.ineditas_of_simulateTxs htxs tx htx)

/-- What a node accepts is a run in the order of the heights that repeats no id. -/
theorem Empilha.execucao {s₀ : State} {bs : List Block} (h : Empilha amb s₀ bs s) :
    ∃ passado, Execucao amb s₀ passado s ∧
      passado.map Prod.snd = bs.flatMap acoesDoBloco ∧ EmOrdem passado ∧
        (idsDaExecucao passado).Nodup := by
  induction h with
  | inicio => exact ⟨[], .inicio, rfl, .nil, .nil⟩
  | bloco h haltura hids hsim ih =>
    rename_i bs s t c block recibos
    obtain ⟨antes, hantes, hacoes, hordem, hnodup⟩ := ih
    obtain ⟨novos, hnovos, hdele⟩ := simulate_execucao hsim
    have hids' : ∀ {p : List (State × Acao)} {as : List Acao}, p.map Prod.snd = as →
        idsDaExecucao p = as.filterMap Acao.id? := by
      rintro p as rfl
      rw [idsDaExecucao, List.filterMap_map]
      rfl
    have hheight : ∀ x ∈ novos, x.2.height = block.height := fun x hx =>
      height_of_mem_acoesDoBloco (hdele ▸ List.mem_map_of_mem hx)
    refine ⟨novos ++ antes, hantes.append hnovos, ?_, ?_, ?_⟩
    · rw [List.map_append, hacoes, hdele, List.flatMap_cons]
    · refine List.pairwise_append.mpr ⟨?_, hordem, fun x hx y hy => ?_⟩
      · refine List.pairwise_of_forall_mem_list fun x hx y hy => le_of_eq ?_
        rw [hheight x hx, hheight y hy]
      · rw [hheight x hx]
        have hy := List.mem_map_of_mem (f := Prod.snd) hy
        rw [hacoes] at hy
        obtain ⟨b, hb, hy⟩ := List.mem_flatMap.mp hy
        rw [height_of_mem_acoesDoBloco hy]
        exact le_of_lt (haltura b hb)
    · have hantigos : ∀ id ∈ idsDaExecucao antes, c.txIndex.contains id = true := by
        intro id hid
        rw [hids' hacoes, List.filterMap_flatMap] at hid
        obtain ⟨b, hb, hid⟩ := List.mem_flatMap.mp hid
        rw [ids_acoesDoBloco, List.mem_reverse] at hid
        obtain ⟨tx, htx, rfl⟩ := List.mem_map.mp hid
        exact hids b hb tx htx
      obtain ⟨hproprios, hineditos⟩ := ids_of_simulate hsim
      rw [idsDaExecucao, List.filterMap_append]
      refine List.nodup_append.mpr ⟨?_, hnodup, fun id hid id' hid' heq => ?_⟩
      · change (idsDaExecucao novos).Nodup
        rw [hids' hdele, ids_acoesDoBloco]
        exact List.nodup_reverse.mpr hproprios
      · have hid : id ∈ idsDaExecucao novos := hid
        rw [hids' hdele, ids_acoesDoBloco, List.mem_reverse] at hid
        obtain ⟨tx, htx, rfl⟩ := List.mem_map.mp hid
        have hsim := hineditos tx htx
        rw [heq, hantigos id' hid'] at hsim
        cases hsim

end Blocos

end Eav7
