import Eav7.BlockTick
import Eav7.Eavm.Garantias
import Eav7.Pegada

/-!
# The footprint of a block

The bridge, the AI layer, the multisignature operations and the virtual machine,
then the whole dispatch, its epilogue and the tick.
-/

namespace Eav7

open Base

variable {I : State → Prop}

/-! ## The bridge -/

section Ponte

variable [Ignora I .bridge]

theorem travarToken_mantem [RetocaTokens I] (t de : String) (amount : Amount) :
    Mantem I (BridgeTx.travarToken t de amount) := by
  refine .get_bind fun s hs => .conferir fun tk htk => .lift_bind fun novo => ?_
  refine .set_bind (RetocaTokens.retoca _ hs (exigir_eq_ok.mp htk)) ?_
  refine .get_bind fun s hs => .lift_bind fun travado => ?_
  exact .modify_intro fun s hs => escreve .bridge hs rfl

theorem travarNativo_mantem (amount : Amount) : Mantem I (BridgeTx.travarNativo amount) :=
  .get_bind fun _ _ => .lift_bind fun _ => .modify_intro fun _ hs => escreve .bridge hs rfl

theorem registrarTransfer_mantem (id : String) (t : Transfer) (s : State) (hs : I s) :
    I (BridgeTx.registrarTransfer id t s) := escreve .bridge hs rfl

theorem bridgeOut_mantem [IgnoraConta I .balance] [RetocaTokens I] (cr : Cripto) (tx : Tx)
    (ctx : Ctx) : Mantem I (BridgeTx.bridgeOut cr tx ctx) := by
  refine .get_bind fun s hs => ?_
  repeat with_reducible refine Mantem.lift_bind fun _ => ?_
  split
  · refine .bind (debitar_mantem _ _) fun _ => .bind (travarToken_mantem _ _ _) fun _ => ?_
    exact .modify_intro (registrarTransfer_mantem _ _)
  · refine .bind (debitar_mantem _ _) fun _ => .bind (travarNativo_mantem _) fun _ => ?_
    exact .modify_intro (registrarTransfer_mantem _ _)

theorem liberar_mantem [IgnoraConta I .balance] [RetocaTokens I] (token : Option String)
    (para : String) (amount : Amount) : Mantem I (BridgeTx.liberar token para amount) := by
  unfold BridgeTx.liberar
  split
  · intro s hs
    have hponte : ∀ b, I { s with bridge := b } := fun b => escreve .bridge hs rfl
    refine Runs.get_bind (Runs.conferir hs fun travado _ => Runs.modify_bind ?_)
    refine Runs.conferir (hponte _) fun tk htk => Runs.conferir (hponte _) fun novo _ => ?_
    exact Runs.modify_intro (RetocaTokens.retoca _ (hponte _) (exigir_eq_ok.mp htk))
  · refine .get_bind fun s hs => .lift_bind fun travado => ?_
    exact .modify_bind (fun s hs => escreve .bridge hs rfl) (creditar_mantem _ _)

theorem bridgeIn_mantem [IgnoraConta I .balance] [RetocaTokens I] (cr : Cripto) (tx : Tx)
    (ctx : Ctx) : Mantem I (BridgeTx.bridgeIn cr tx ctx) := by
  refine .get_bind fun s hs => .lift_bind fun dep => ?_
  refine .modify_bind (fun s hs => escreve .bridge hs rfl) ?_
  refine .bind (liberar_mantem _ _ _) fun _ => ?_
  exact .modify_intro fun s hs => escreve .bridge hs rfl

theorem bridgeSettle_mantem (tx : Tx) (ctx : Ctx) : Mantem I (BridgeTx.bridgeSettle tx ctx) := by
  refine .get_bind fun s hs => ?_
  repeat with_reducible refine Mantem.lift_bind fun _ => ?_
  exact .modify_intro (registrarTransfer_mantem _ _)

end Ponte

theorem committeeUpdate_mantem [IgnoraConta I .balance] [Ignora I .bridgeSourceCommittees]
    (cr : Cripto) (tx : Tx) (ctx : Ctx) : Mantem I (BridgeTx.committeeUpdate cr tx ctx) := by
  refine .get_bind fun s hs => ?_
  repeat with_reducible refine Mantem.lift_bind fun _ => ?_
  refine .bind (debitar_mantem _ _) fun _ => ?_
  exact .modify_intro fun s hs => escreve .bridgeSourceCommittees hs rfl

/-! ## The AI layer -/

section Ia

variable (tx : Tx) (ctx : Ctx)

theorem comOraculo_mantem [Ignora I .oracles] (nome : String) (f : Oracle → Oracle) (s : State)
    (hs : I s) : I (AiTx.comOraculo nome f s) := by
  unfold AiTx.comOraculo
  split
  · exact escreve .oracles hs rfl
  · exact hs

theorem comTarefa_mantem [Ignora I .aiTasks] (id : String) (f : Task → Task) (s : State)
    (hs : I s) : I (AiTx.comTarefa id f s) := by
  unfold AiTx.comTarefa
  split
  · exact escreve .aiTasks hs rfl
  · exact hs

theorem ajustarJurados_mantem [Ignora I .oracles] (mantido : Bool)
    (votos : List (String × Bool)) : ∀ s, I s → I (AiTx.ajustarJurados mantido votos s) := by
  induction votos with
  | nil => exact fun _ hs => hs
  | cons v resto ih => exact fun s hs => ih _ (comOraculo_mantem _ _ s hs)

theorem rebaixar_mantem [Ignora I .oracles] (passo : ℕ) (quem : List String) :
    ∀ s, I s → I (AiTx.rebaixar passo quem s) := by
  induction quem with
  | nil => exact fun _ hs => hs
  | cons q outros ih => exact fun s hs => ih _ (comOraculo_mantem _ _ s hs)

theorem penalizarSe_mantem [Ignora I .oracles] (nome : Option String) :
    Mantem I (AiTx.penalizarSe nome) := by
  unfold AiTx.penalizarSe
  split
  · refine .get_bind fun s hs => ?_
    split
    · exact .pure_intro _
    · refine .set_bind (comOraculo_mantem _ _ s hs) (.ite ?_ (.pure_intro _))
      refine .lift_bind fun slashed => .modify_bind (comOraculo_mantem _ _) (.pure_intro _)
  · exact .pure_intro _

variable [IgnoraConta I .balance] [Ignora I .aiTasks]

theorem aiTask_mantem (cr : Cripto) : Mantem I (AiTx.aiTask cr tx ctx) := by
  refine .get_bind fun s hs => .lift_bind fun p => .lift_bind fun tarefa => ?_
  exact .bind (debitar_mantem _ _) fun _ => .modify_intro fun s hs => escreve .aiTasks hs rfl

theorem aiChallenge_mantem : Mantem I (AiTx.aiChallenge tx ctx) := by
  refine .get_bind fun s hs => ?_
  repeat with_reducible refine Mantem.lift_bind fun _ => ?_
  exact .bind (debitar_mantem _ _) fun _ => .modify_intro (comTarefa_mantem _ _)

theorem aiBid_mantem : Mantem I (AiTx.aiBid tx ctx) := by
  refine .get_bind fun s hs => ?_
  repeat with_reducible refine Mantem.lift_bind fun _ => ?_
  exact .bind (debitar_mantem _ _) fun _ => .modify_intro (comTarefa_mantem _ _)

theorem aiCommit_mantem : Mantem I (AiTx.aiCommit tx ctx) := by
  refine .get_bind fun s hs => ?_
  repeat with_reducible refine Mantem.lift_bind fun _ => ?_
  exact .bind (debitar_mantem _ _) fun _ => .modify_intro (comTarefa_mantem _ _)

theorem aiAward_mantem : Mantem I (AiTx.aiAward tx ctx) := by
  refine .get_bind fun s hs => ?_
  repeat with_reducible refine Mantem.lift_bind fun _ => ?_
  refine .bind (debitar_mantem _ _) fun _ => ?_
  refine .ite (.bind (creditar_mantem _ _) fun _ => ?_) ?_ <;>
    exact .modify_intro (comTarefa_mantem _ _)

variable [Ignora I .oracles]

theorem aiResult_mantem (cr : Cripto) : Mantem I (AiTx.aiResult cr tx ctx) := by
  refine .get_bind fun s hs => ?_
  repeat with_reducible refine Mantem.lift_bind fun _ => ?_
  split
  · refine .modify_bind (comTarefa_mantem _ _) (.modify_bind (comOraculo_mantem _ _) ?_)
    exact creditar_mantem _ _
  · exact .modify_intro (comTarefa_mantem _ _)

theorem aiClaim_mantem : Mantem I (AiTx.aiClaim tx ctx) := by
  refine .get_bind fun s hs => .lift_bind fun t => .lift_bind fun _ => .ite ?_ (.ite ?_ ?_)
  · refine .lift_bind fun _ => .lift_bind fun oraculo => .bind (debitar_mantem _ _) fun _ => ?_
    refine .bind (creditar_mantem _ _) fun _ => .modify_bind (comOraculo_mantem _ _) ?_
    exact .modify_intro (comTarefa_mantem _ _)
  · repeat with_reducible refine Mantem.lift_bind fun _ => ?_
    refine .bind (debitar_mantem _ _) fun _ => .bind (creditar_mantem _ _) fun _ => ?_
    exact .bind (creditar_mantem _ _) fun _ => .modify_intro (comTarefa_mantem _ _)
  · exact .lift_intro _

theorem resolver_mantem (t : Task) (taskId : String) (votos : OrdMap String Bool) :
    Mantem I (AiTx.resolver t taskId votos) := by
  have hmanter : Mantem I (AiTx.manter t taskId) := by
    refine .lift_bind fun oraculo => .lift_bind fun total => .bind (creditar_mantem _ _) fun _ => ?_
    exact .modify_bind (comOraculo_mantem _ _) (.modify_intro (comTarefa_mantem _ _))
  have hderrubar : Mantem I (AiTx.derrubar t taskId) := by
    refine .lift_bind fun desafiante => .bind (creditar_mantem _ _) fun _ => ?_
    refine .bind (penalizarSe_mantem _) fun bounty => .lift_bind fun total => ?_
    exact .bind (creditar_mantem _ _) fun _ => .modify_intro (comTarefa_mantem _ _)
  have hfim : Mantem I (do
      modify (AiTx.ajustarJurados (decide (votos.size < (votos.values.filter id).length * 2))
        votos.entries)
      modify (AiTx.comTarefa taskId fun t => { t with output := none }.comVotes ∅) : Op Unit) :=
    .modify_bind (ajustarJurados_mantem _ _) (.modify_intro (comTarefa_mantem _ _))
  exact .ite (.bind hmanter fun _ => hfim) (.bind hderrubar fun _ => hfim)

theorem aiVerdict_mantem : Mantem I (AiTx.aiVerdict tx ctx) := by
  refine .get_bind fun s hs => .lift_bind fun t => .bind (debitar_mantem _ _) fun _ => ?_
  refine .modify_bind (comTarefa_mantem _ _) (.ite (resolver_mantem _ _ _) (.pure_intro _))

omit [Ignora I .aiTasks] in
theorem pagarVencedores_mantem (quota : Amount) (quem : List String) :
    ∀ resto, Mantem I (AiTx.pagarVencedores quota resto quem) := by
  induction quem with
  | nil => exact fun _ => .pure_intro _
  | cons q outros ih =>
    intro resto
    unfold AiTx.pagarVencedores
    extract_lets paga
    have hpaga : ∀ parte, Mantem I (paga parte) := fun _ =>
      .bind (creditar_mantem _ _) fun _ => .modify_bind (comOraculo_mantem _ _) (ih _)
    exact .ite (.lift_bind hpaga) (.lift_bind hpaga)

theorem aiReveal_mantem (cr : Cripto) : Mantem I (AiTx.aiReveal cr tx ctx) := by
  refine .get_bind fun s hs => .lift_bind fun r => .bind (debitar_mantem _ _) fun _ => ?_
  refine .modify_bind (comTarefa_mantem _ _) ?_
  split
  · exact .pure_intro _
  · refine .lift_bind fun _ => .modify_bind (comTarefa_mantem _ _) ?_
    refine .bind (pagarVencedores_mantem _ _ _) fun _ => ?_
    exact .modify_intro (rebaixar_mantem _ _)

theorem aiRefund_mantem : Mantem I (AiTx.aiRefund tx ctx) := by
  refine .get_bind fun s hs => ?_
  repeat with_reducible refine Mantem.lift_bind fun _ => ?_
  refine .modify_bind (comTarefa_mantem _ _) (.bind (creditar_mantem _ _) fun _ => ?_)
  split
  · exact .modify_intro (rebaixar_mantem _ _)
  · exact .bind (penalizarSe_mantem _) fun _ => .ite (creditar_mantem _ _) (.pure_intro _)

end Ia

/-! ## Multisignature operations -/

section Multisig

variable (cr : Cripto)

theorem gravarPropostaGov_mantem [Ignora I .proposals] (proposer param : String) (value : ValorGov)
    (votingBlocks height : ℕ) (id : String) (createdAt : ℤ) :
    Mantem I (GovTx.gravarPropostaGov proposer param value votingBlocks height id createdAt) :=
  .get_bind fun _ _ => .lift_bind fun _ => .lift_bind fun _ =>
    .modify_intro fun _ hs => escreve .proposals hs rfl

theorem aplicarVotoGov_mantem [Ignora I .proposals] (voter proposalId : String) (height : ℕ) :
    Mantem I (GovTx.aplicarVotoGov voter proposalId height) :=
  .get_bind fun _ _ => .lift_bind fun _ => .lift_bind fun _ =>
    .modify_intro fun _ hs => escreve .proposals hs rfl

section Operacao

variable [IgnoraConta I .balance] [IgnoraConta I .staked] [Ignora I .unbonding]
  [Ignora I .pendingCommission] [Ignora I .votes] [Ignora I .candidateVotes]
  [Ignora I .voterRewardDebt] [Ignora I .proposals] (account : String) (op : GovTx.OpResolvida)
  (height : ℕ) (opId : String)

/-- An operation, but for the ones that change the permission or move a token. -/
theorem aplicarOp_partes
    (hperm : ∀ perm, op = .permissionChange perm → ∀ s, I s →
      I (GovTx.aplicarPermissionChange account perm s))
    (htoken : ∀ token para amount, op = .tokenTransfer token para amount →
      Mantem I (TokenTx.efeitoMetaTransfer token account para amount height))
    (hnft : ∀ colecao tokenId para, op = .nftTransfer colecao tokenId para →
      Mantem I (NftTx.efeitoMultisigTransfer cr colecao tokenId account para)) :
    Mantem I (GovTx.aplicarOp cr account op height opId) := by
  cases op with
  | transfer para amount =>
    exact .bind (debitar_mantem _ _) fun _ => creditar_mantem _ _
  | stake amount =>
    refine .bind (debitar_mantem _ _) fun _ => .get_bind fun s hs => .lift_bind fun _ => ?_
    exact .modify_intro (comConta_mantem .staked fun _ => rfl)
  | unstake amount =>
    refine .get_bind fun s hs => .lift_bind fun _ => ?_
    refine .modify_bind (comConta_mantem .staked fun _ => rfl) ?_
    exact .lift_bind fun matura => .modify_intro fun s hs => escreve .unbonding hs rfl
  | setCommission pct =>
    exact .lift_bind fun em => .modify_intro fun s hs => escreve .pendingCommission hs rfl
  | tokenTransfer token para amount => exact htoken token para amount rfl
  | nftTransfer colecao tokenId para => exact hnft colecao tokenId para rfl
  | vote votos => exact aplicarVoto_mantem _ _ _
  | claimVoterReward validador => exact liquidarRecompensa_mantem _ _
  | permissionChange perm => exact .modify_intro (hperm perm rfl)
  | govPropose param value votingBlocks => exact gravarPropostaGov_mantem _ _ _ _ _ _ _
  | govVote proposalId => exact aplicarVotoGov_mantem _ _ _

/-- An operation, but for the one that changes the permission. -/
theorem aplicarOp_mantem [RetocaTokens I] [Ignora I .nfts]
    (hperm : ∀ perm, op = .permissionChange perm → ∀ s, I s →
      I (GovTx.aplicarPermissionChange account perm s)) :
    Mantem I (GovTx.aplicarOp cr account op height opId) :=
  aplicarOp_partes cr account op height opId hperm
    (fun _ _ _ _ => efeitoMetaTransfer_mantem _ _ _ _ _)
    fun _ _ _ _ => efeitoMultisigTransfer_mantem _ _ _ _ _

end Operacao

end Multisig

/-! ## The virtual machine -/

/-- A run of the machine writes the balances of the accounts and the contracts. -/
theorem Ignora.mundo [hb : IgnoraConta I .balance] [Ignora I .contracts] {s t : State} (hs : I s)
    (h : t.semMundo = s.semMundo) (hcampos : ∀ e7, t.semSaldo e7 = s.semSaldo e7) : I t := by
  have hcontas : I { s with accounts := t.accounts } :=
    hb.congr (s := s) rfl hcampos hs
  have hmesmas : ∀ u : State, { u.semMundo with accounts := t.accounts } =
      Campo.contracts.apaga { u with accounts := t.accounts } := fun _ => rfl
  refine escreve .contracts hcontas ?_
  rw [← hmesmas s, ← h, hmesmas t]

section Maquina

variable [IgnoraConta I .balance] [IgnoraConta I .quota] {amb : Ambiente} (tx : Tx)

theorem aplicarTransfer_mantem (height feeLimit : ℕ) :
    Mantem I (EavmTx.aplicarTransfer tx height feeLimit) := by
  refine .get_bind fun s hs => ?_
  repeat with_reducible refine Mantem.lift_bind fun _ => ?_
  refine .bind (debitar_mantem _ _) fun _ => .bind (creditar_mantem _ _) fun _ => ?_
  exact .modify_bind (comConta_mantem .quota fun _ => rfl) (.pure_intro _)

theorem cobrarVm_mantem {w : EavmWorld} (hw : I w.state) (hdesfeito : I (w.desfazAte 0).state)
    (height feeLimit : ℕ) : Mantem I (EavmTx.cobrarVm w tx height feeLimit) := by
  unfold EavmTx.cobrarVm
  refine .set_bind hw ?_
  dsimp only
  have hrecusa : ∀ {α : Type} (msg : String) (f : Unit → Op α), Mantem I (do
      set (w.desfazAte 0).state
      liftM (recusar True msg) >>= f) := fun msg f s _ =>
    Runs.set_bind (Runs.bind (Runs.lift_intro (fun _ h => by cases h) fun _ _ => hdesfeito))
  refine .lift_bind fun fee => .ite (hrecusa _ _) (.ite (hrecusa _ _) ?_)
  refine .modify_bind ?_ (.pure_intro _)
  exact comConta_mantem₂ .balance .quota
    (fun c => { c with balance := w.state.balanceOf tx.de - fee }) (fun _ => rfl) fun _ => rfl

theorem aplicarVm_mantem [Ignora I .contracts] (height blockTs feeLimit : ℕ) :
    Mantem I (EavmTx.aplicarVm amb tx height blockTs feeLimit) := by
  refine .get_bind fun s hs => ?_
  have hexec : ∀ p r w, EavmTx.executar amb s p tx height blockTs = .ok (r, w) →
      I w.state ∧ I (w.desfazAte 0).state := by
    intro p r w h
    obtain ⟨hconserva, hpreserva, -⟩ := executar_mantem h
    rw [desfazAte_zero rfl hpreserva]
    exact ⟨Ignora.mundo hs hconserva.resto hconserva.campos, hs⟩
  refine .lift_bind fun p u hu => Runs.bind (Runs.lift_intro (fun f hf => ?_) fun _ _ => hu)
  obtain ⟨hw, hdesfeito⟩ := hexec p f.1 f.2 hf
  exact Mantem.bind (cobrarVm_mantem tx hw hdesfeito _ _) (fun _ => .pure_intro _) u hu

theorem aplicar_mantem [Ignora I .contracts] (height blockTs : ℕ) :
    Mantem I (EavmTx.aplicar amb tx height blockTs) := by
  refine .lift_bind fun feeLimit => .ite (.bind (aplicarTransfer_mantem tx _ _) fun _ => ?_) ?_
  · exact .pure_intro _
  · exact .bind (aplicarVm_mantem tx _ _ _) fun _ => .pure_intro _

end Maquina

/-! ## The dispatch -/

/-- The types that write to the permissions or to what waits on them. -/
def Tipo.dePermissao : List Tipo :=
  [permissionUpdate, permissionPropose, permissionApprove, permissionVeto, multisigPropose,
    multisigApprove]

/-- Every other handler leaves the permissions alone. -/
theorem manipulador_mantem [Ignora I .accounts] [Ignora I .totalBurned] [Ignora I .unbonding]
    [Ignora I .votes] [Ignora I .candidateVotes] [Ignora I .pendingCommission] [Ignora I .tokens]
    [Ignora I .nfts] [Ignora I .names] [Ignora I .proposals] [Ignora I .oracles]
    [Ignora I .aiTasks] [Ignora I .bridge] [Ignora I .bridgeSourceCommittees]
    [Ignora I .delegations] [Ignora I .vesting] [Ignora I .slashed] [Ignora I .voterRewardDebt]
    {amb : Ambiente} (tx : Tx) (ctx : Ctx) {tipo : Tipo} (htipo : tipo ∉ Tipo.dePermissao) :
    Mantem I (manipulador amb tx ctx tipo) := by
  cases tipo with
  | transfer => exact transfer_mantem tx ctx
  | stake => exact stake_mantem tx ctx
  | unstake => exact unstake_mantem tx ctx
  | vote => exact vote_mantem _ tx ctx
  | setCommission => exact setCommission_mantem tx ctx
  | slashDoubleSign => exact slashDoubleSign_mantem _ tx ctx
  | delegateResource => exact delegateResource_mantem _ tx ctx
  | undelegateResource => exact undelegateResource_mantem _ tx ctx
  | vestingCreate => exact vestingCreate_mantem _ tx ctx
  | vestingClaim => exact vestingClaim_mantem tx ctx
  | claimVoterReward => exact claimVoterReward_mantem _ tx ctx
  | tokenCreate => exact criar_mantem _ tx ctx
  | tokenTransfer => exact transferir_mantem _ tx ctx
  | tokenApprove => exact aprovar_mantem _ tx ctx
  | tokenTransferFrom => exact transferirDe_mantem _ tx ctx
  | tokenMint => exact emitir_mantem _ tx ctx
  | tokenBurn => exact queimarToken_mantem tx ctx
  | tokenPause => exact pausar_mantem tx ctx
  | tokenUnpause => exact pausar_mantem tx ctx
  | tokenBlacklist => exact bloquear_mantem _ tx ctx
  | tokenFreeze => exact congelar_mantem tx ctx
  | tokenUnfreeze => exact descongelar_mantem tx ctx
  | nftCreate => exact nftCreate_mantem _ tx ctx
  | nftMint => exact nftMint_mantem _ tx ctx
  | nftTransfer => exact nftTransfer_mantem _ tx ctx
  | nftApprove => exact nftApprove_mantem _ tx ctx
  | nftBurn => exact nftBurn_mantem tx ctx
  | nameRegister => exact nameRegister_mantem _ tx ctx
  | nameUpdate => exact nameUpdate_mantem _ tx ctx
  | nameTransfer => exact nameTransfer_mantem _ tx ctx
  | nameRelease => exact nameRelease_mantem tx ctx
  | govPropose => exact govPropose_mantem _ tx ctx
  | govVote => exact govVote_mantem tx ctx
  | permissionUpdate => exact absurd (by decide) htipo
  | permissionPropose => exact absurd (by decide) htipo
  | permissionApprove => exact absurd (by decide) htipo
  | permissionVeto => exact absurd (by decide) htipo
  | multisigPropose => exact absurd (by decide) htipo
  | multisigApprove => exact absurd (by decide) htipo
  | metaTx => exact metaTx_mantem tx ctx amb
  | oracleRegister => exact oracleRegister_mantem tx ctx
  | aiTask => exact aiTask_mantem tx ctx _
  | aiResult => exact aiResult_mantem tx ctx _
  | aiClaim => exact aiClaim_mantem tx ctx
  | aiChallenge => exact aiChallenge_mantem tx ctx
  | aiVerdict => exact aiVerdict_mantem tx ctx
  | aiBid => exact aiBid_mantem tx ctx
  | aiAward => exact aiAward_mantem tx ctx
  | aiCommit => exact aiCommit_mantem tx ctx
  | aiReveal => exact aiReveal_mantem tx ctx _
  | aiRefund => exact aiRefund_mantem tx ctx
  | bridgeIn => exact bridgeIn_mantem _ tx ctx
  | bridgeOut => exact bridgeOut_mantem _ tx ctx
  | bridgeSettle => exact bridgeSettle_mantem tx ctx
  | bridgeCommitteeUpdate => exact committeeUpdate_mantem _ tx ctx

/-! ## The epilogue, the reward and the tick -/

theorem queimarTaxa_mantem [Ignora I .totalBurned] (fee : Amount) : Mantem I (queimarTaxa fee) :=
  .get_bind fun _ _ => .lift_bind fun _ => .modify_intro fun _ hs => escreve .totalBurned hs rfl

/-- The account of the sender at the end of a transaction. -/
theorem fechaConta_mantem [IgnoraConta I .nonce] [IgnoraConta I .quota] (a : String)
    (height recebido : ℕ) (gb : Peek) (s : State) (hs : I s) :
    I (s.comConta a fun c => commitGb height gb { c with nonce := recebido }) :=
  comConta_mantem₂ .nonce .quota (f := fun c => commitGb height gb { c with nonce := recebido })
    (fun c => { c with nonce := recebido }) (fun _ => rfl) (fun _ => rfl) s hs

/-- A transaction of the virtual machine. -/
theorem aplicarEavm_mantem [IgnoraConta I .balance] [IgnoraConta I .quota] [IgnoraConta I .nonce]
    [Ignora I .contracts] [Ignora I .totalBurned] {amb : Ambiente} (tx : Tx) (height blockTs recebido : ℕ) :
    Mantem I (aplicarEavm amb tx height blockTs recebido) := by
  refine .bind (aplicar_mantem tx _ _) fun r => ?_
  refine .modify_bind (comConta_mantem .nonce fun _ => rfl) ?_
  exact .bind (queimarTaxa_mantem _) fun _ => .pure_intro _

/-- A transaction keeps what its handler keeps, besides what every transaction writes. -/
theorem applyTransaction_guia [IgnoraConta I .balance] [IgnoraConta I .quota]
    [IgnoraConta I .nonce] [Ignora I .contracts] [Ignora I .totalBurned] {amb : Ambiente} {tx : Tx}
    {height blockTs : ℕ} {s : State} (hs : I s)
    (hm : ∀ tipo gb fee, tx.txType ∉ EavmTx.tipos → Tipo.deTexto tx.txType = some tipo →
      (∃ recebido, conferirEntrada s tx = .ok recebido) →
      apurarTaxa s tx height = .ok (gb, fee) →
      Runs (manipulador amb tx ⟨height, blockTs, fee⟩ tipo) s (fun _ t => I t) fun _ t => I t) :
    Runs (applyTransaction amb tx height blockTs) s (fun _ t => I t) fun _ t => I t := by
  refine Runs.get_bind (Runs.conferir hs fun recebido hentrada => Runs.ite (fun _ => ?_) fun hvm => ?_)
  · exact aplicarEavm_mantem tx _ _ _ s hs
  refine Runs.conferir hs fun r htaxa => ?_
  obtain ⟨gb, fee⟩ := r
  have hepilogo : Mantem I (do
      modify (·.comConta tx.de fun c => commitGb height gb { c with nonce := recebido })
      queimarTaxa fee
      return { fee := fee, eavm := none } : Op AppliedTx) :=
    .modify_bind (fechaConta_mantem _ _ _ _) (.bind (queimarTaxa_mantem _) fun _ => .pure_intro _)
  refine Runs.bind (Runs.mono (Q := fun _ t => I t) ?_ (fun _ u hu => hepilogo u hu) fun _ _ h => h)
  unfold despachar
  split
  case h_1 tipo htipo => exact hm tipo gb fee hvm htipo ⟨_, hentrada⟩ htaxa
  case h_2 => exact Runs.lift_intro (fun _ _ => hs) fun _ _ => hs

theorem abreBloco_mantem [Ignora I .contracts] (block : Block) : Mantem I (abreBloco block) := by
  have hfim : Mantem I (do
      if block.timestamp < 0 then recusar True "timestamp inválido"
      return block.timestamp.toNat : Op ℕ) :=
    .ite (.lift_bind fun _ => .pure_intro _) (.pure_intro _)
  exact .ite (.modify_bind (fun s hs => escreve .contracts hs rfl) hfim) hfim

theorem distributeBlockReward_mantem [IgnoraConta I .balance] [Ignora I .treasury]
    [Ignora I .rewardAccPerVote] (producer : String) (reward : Amount) :
    Mantem I (distributeBlockReward producer reward) := by
  have hcorte : Mantem I (cortarTesouraria reward) := by
    refine .get_bind fun s hs => .lift_bind fun pct => .lift_bind fun bruto => ?_
    refine .ite (.lift_bind fun _ => ?_) (.pure_intro _)
    exact .modify_bind (fun s hs => escreve .treasury hs rfl) (.lift_intro _)
  refine .bind hcorte fun resto => .get_bind fun s hs => .ite (creditar_mantem _ _) ?_
  refine .get_bind fun s hs => .lift_bind fun p => .bind (creditar_mantem _ _) fun _ => ?_
  refine .get_bind fun s hs => .lift_bind fun _ => ?_
  exact .modify_intro fun s hs => escreve .rewardAccPerVote hs rfl

theorem aplicarComite_mantem [Ignora I .bridgeSourceCommittees] (v : JsonValue) (s : State)
    (hs : I s) : I (aplicarComite v s) := by
  unfold aplicarComite
  split
  · exact hs
  · split_ifs
    · exact hs
    · exact escreve .bridgeSourceCommittees hs rfl

theorem aplicarAtestador_mantem [Ignora I .aiAttesters] (v : JsonValue) (height : ℕ) (s : State)
    (hs : I s) : I (aplicarAtestador v height s) := by
  unfold aplicarAtestador
  split
  · exact hs
  · exact escreve .aiAttesters hs rfl

theorem aplicarParam_mantem [Ignora I .params] (param valor : String) (s : State) (hs : I s) :
    I (aplicarParam param valor s) := by
  unfold aplicarParam
  dsimp only
  split_ifs
  · split
    · exact escreve .params hs rfl
    · exact escreve .params hs rfl
  · exact escreve .params hs rfl

section Tique

variable [IgnoraConta I .balance]

theorem gastarTesouraria_mantem [Ignora I .treasury] (v : JsonValue) :
    Mantem I (gastarTesouraria v) := by
  unfold gastarTesouraria
  split
  · refine .lift_bind fun amt => .get_bind fun s hs => .ite ?_ (.pure_intro _)
    exact .set_bind (escreve .treasury hs rfl) (creditar_mantem _ _)
  · exact .pure_intro _

variable [Ignora I .treasury] [Ignora I .bridgeSourceCommittees] [Ignora I .aiAttesters]
  [Ignora I .params] [Ignora I .proposals]

theorem maturaProposta_mantem (height : ℕ) (id : String) : Mantem I (maturaProposta height id) := by
  have hremove : Mantem I (modify (removeProposta id) : Op PUnit) :=
    .modify_intro fun s hs => escreve .proposals hs rfl
  have haplica : ∀ param value, Mantem I (aplicaPropostaMadura param value height) := by
    intro param value
    cases value with
    | objeto v =>
      refine .ite (.modify_intro (aplicarComite_mantem _)) (.ite (gastarTesouraria_mantem _) ?_)
      exact .ite (.modify_intro (aplicarAtestador_mantem _ _)) (.pure_intro _)
    | inteiro d => exact .ite (.pure_intro _) (.modify_intro (aplicarParam_mantem _ _))
  refine .get_bind fun s hs => ?_
  split
  · exact .pure_intro _
  · exact .ite (.bind (haplica _ _) fun _ => hremove) (.ite hremove (.pure_intro _))

theorem maturaPropostas_mantem (height : ℕ) : Mantem I (maturaPropostas height) := by
  have hcada : ∀ ids, Mantem I (maturaCadaProposta height ids) := by
    intro ids
    induction ids with
    | nil => exact .pure_intro _
    | cons id ids ih => exact .bind (maturaProposta_mantem _ _) fun _ => ih
  exact .get_bind fun s hs => hcada _

omit [Ignora I .treasury] [Ignora I .bridgeSourceCommittees] [Ignora I .aiAttesters]
  [Ignora I .params] [Ignora I .proposals]

theorem maturaUnbonding_mantem [Ignora I .unbonding] (height : ℕ) :
    Mantem I (maturaUnbonding height) := by
  have htodos : ∀ us, Mantem I (creditarTodos us) := by
    intro us
    induction us with
    | nil => exact .pure_intro _
    | cons u us ih => exact .bind (creditar_mantem _ _) fun _ => ih
  exact .get_bind fun s hs => .set_bind (escreve .unbonding hs rfl) (htodos _)

end Tique

theorem ativaComissoes_mantem [Ignora I .commission] [Ignora I .pendingCommission] (height : ℕ)
    (s : State) (hs : I s) : I (ativaComissoes height s) := by
  have hativas : I { s with commission := (ativaComissoes height s).commission } :=
    escreve .commission hs rfl
  exact escreve .pendingCommission hativas rfl

/-! ## The genesis -/

theorem applyGenesis_mantem [IgnoraConta I .balance] [IgnoraConta I .staked]
    [Ignora I .bridgeRelayers] [Ignora I .vesting] [Ignora I .bridgeSourceCommittees] (cr : Cripto) (alocacoes : JsonValue) :
    Mantem I (applyGenesis cr alocacoes) := by
  have hsaldos : ∀ es, Mantem I (saldosGenese es) := by
    intro es
    induction es with
    | nil => exact .pure_intro _
    | cons e resto ih => exact .lift_bind fun v => .bind (creditar_mantem _ _) fun _ => ih
  have hstakes : ∀ es, Mantem I (stakesGenese es) := by
    intro es
    induction es with
    | nil => exact .pure_intro _
    | cons e resto ih =>
      refine .lift_bind fun v => .get_bind fun s hs => .lift_bind fun _ => ?_
      exact .modify_bind (comConta_mantem .staked fun _ => rfl) ih
  have hvestings : ∀ es, Mantem I (vestingsGenese es) := by
    intro es
    induction es with
    | nil => exact .pure_intro _
    | cons e resto ih =>
      refine .lift_bind fun v => ?_
      cases v with
      | none => exact ih
      | some v => exact .modify_bind (fun s hs => escreve .vesting hs rfl) ih
  have hcomites : ∀ es s, I s → I (comitesGenese cr s es) := by
    intro es
    induction es with
    | nil => exact fun s hs => hs
    | cons e resto ih =>
      intro s hs
      obtain ⟨cadeia, v⟩ := e
      cases v with
      | map c => exact ih _ (escreve .bridgeSourceCommittees hs rfl)
      | _ => exact ih _ hs
  unfold applyGenesis
  split
  · refine .bind (hsaldos _) fun _ => .bind (hstakes _) fun _ => ?_
    refine .modify_bind (fun s hs => escreve .bridgeRelayers hs rfl) ?_
    exact .bind (hvestings _) fun _ => .modify_intro (hcomites _)
  · exact .lift_intro _

end Eav7
