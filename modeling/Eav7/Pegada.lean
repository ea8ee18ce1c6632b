import Eav7.Base.Invariante
import Eav7.Aplicacao

/-!
# The footprint of each transaction

Which fields of the state a handler may write, as the fields that an invariant
has to ignore for the handler to keep it.
-/

namespace Eav7

open Base

/-- The fields of the state. -/
inductive Campo where
  | accounts | totalMinted | totalBurned | unbonding | votes | candidateVotes | commission
  | pendingCommission | tokens | nfts | names | contracts | permissions | pendingOps | pendingPerm
  | proposals | params | oracles | aiTasks | aiAttesters | bridge | bridgeRelayers
  | bridgeSourceCommittees | delegations | vesting | slashed | rewardAccPerVote | voterRewardDebt
  | treasury
  deriving DecidableEq

/-- The state with one field blanked. -/
def Campo.apaga (s : State) : Campo → State
  | accounts => { s with accounts := ∅ }
  | totalMinted => { s with totalMinted := 0 }
  | totalBurned => { s with totalBurned := 0 }
  | unbonding => { s with unbonding := [] }
  | votes => { s with votes := ∅ }
  | candidateVotes => { s with candidateVotes := ∅ }
  | commission => { s with commission := ∅ }
  | pendingCommission => { s with pendingCommission := ∅ }
  | tokens => { s with tokens := ∅ }
  | nfts => { s with nfts := ∅ }
  | names => { s with names := ∅ }
  | contracts => { s with contracts := ∅ }
  | permissions => { s with permissions := ∅ }
  | pendingOps => { s with pendingOps := ∅ }
  | pendingPerm => { s with pendingPerm := ∅ }
  | proposals => { s with proposals := ∅ }
  | params => { s with params := ∅ }
  | oracles => { s with oracles := ∅ }
  | aiTasks => { s with aiTasks := ∅ }
  | aiAttesters => { s with aiAttesters := ∅ }
  | bridge => { s with bridge := {} }
  | bridgeRelayers => { s with bridgeRelayers := ∅ }
  | bridgeSourceCommittees => { s with bridgeSourceCommittees := ∅ }
  | delegations => { s with delegations := ∅ }
  | vesting => { s with vesting := ∅ }
  | slashed => { s with slashed := ∅ }
  | rewardAccPerVote => { s with rewardAccPerVote := ∅ }
  | voterRewardDebt => { s with voterRewardDebt := ∅ }
  | treasury => { s with treasury := 0 }

/-- The invariant does not see the field. -/
class Ignora (I : State → Prop) (c : Campo) : Prop where
  congr : ∀ {s t}, c.apaga t = c.apaga s → I s → I t

/-- A write of one field, given by what it leaves alone. -/
theorem escreve {I : State → Prop} (c : Campo) [h : Ignora I c] {s t : State} (hs : I s)
    (ht : c.apaga t = c.apaga s) : I t := h.congr ht hs

/-- The parts of an account that are written apart. -/
inductive CampoConta where
  | balance | nonce | staked | quota | delegated | eavmManaged
  deriving DecidableEq

/-- The account with one part blanked. -/
def CampoConta.apaga (acc : Account) : CampoConta → Account
  | balance => { acc with balance := 0 }
  | nonce => { acc with nonce := 0 }
  | staked => { acc with staked := 0 }
  | quota => { acc with gbUsed := 0, gbBlock := 0 }
  | delegated => { acc with delegatedOut := 0, delegatedIn := 0 }
  | eavmManaged => { acc with eavmManaged := false }

/-- The invariant does not see that part of any account. -/
class IgnoraConta (I : State → Prop) (c : CampoConta) : Prop where
  congr : ∀ {s t}, Campo.accounts.apaga t = Campo.accounts.apaga s →
    (∀ a, c.apaga (t.account a) = c.apaga (s.account a)) → I s → I t

variable {I : State → Prop}

instance [Ignora I .accounts] (c : CampoConta) : IgnoraConta I c where
  congr h _ hs := escreve .accounts hs h

/-! ## Balances -/

theorem comConta_mantem (c : CampoConta) [h : IgnoraConta I c] {a : String} {f : Account → Account}
    (hf : ∀ acc, c.apaga (f acc) = c.apaga acc) (s : State) (hs : I s) : I (s.comConta a f) := by
  refine h.congr (s := s) rfl (fun b => ?_) hs
  rw [State.account_comConta]
  split_ifs with hb
  · rw [hb, hf]
  · rfl

/-- A write of two parts, through the account `g` that has the first one written. -/
theorem comConta_mantem₂ (c d : CampoConta) [IgnoraConta I c] [h : IgnoraConta I d] {a : String}
    {f : Account → Account} (g : Account → Account) (hg : ∀ acc, c.apaga (g acc) = c.apaga acc)
    (hf : ∀ acc, d.apaga (f acc) = d.apaga (g acc)) (s : State) (hs : I s) :
    I (s.comConta a f) := by
  refine h.congr (s := s.comConta a g) rfl (fun b => ?_) (comConta_mantem c hg s hs)
  rw [State.account_comConta, State.account_comConta]
  split_ifs
  · exact hf _
  · rfl

section Contas

variable [IgnoraConta I .balance]

theorem comSaldo_mantem (a : String) (v : Amount) (s : State) (hs : I s) : I (s.comSaldo a v) :=
  comConta_mantem .balance (f := fun c => { c with balance := v }) (fun _ => rfl) s hs

theorem debitar_mantem (a : String) (v : Amount) : Mantem I (debitar a v) := by
  refine .get_bind fun s hs => .set_bind (comConta_mantem .balance (fun _ => rfl) s hs) ?_
  exact .lift_bind fun _ => .set_intro (comSaldo_mantem _ _ s hs)

theorem creditar_mantem (a : String) (v : Amount) : Mantem I (creditar a v) := by
  refine .get_bind fun s hs => .set_bind (comConta_mantem .balance (fun _ => rfl) s hs) ?_
  exact .lift_bind fun _ => .set_intro (comSaldo_mantem _ _ s hs)

theorem cobrarTaxa_mantem (tx : Tx) (ctx : Ctx) : Mantem I (GovTx.cobrarTaxa tx ctx) :=
  .get_bind fun _ _ => .lift_bind fun _ => debitar_mantem _ _

theorem transfer_mantem (tx : Tx) (ctx : Ctx) : Mantem I (transfer tx ctx) := by
  refine .get_bind fun s hs => ?_
  repeat with_reducible refine Mantem.lift_bind fun _ => ?_
  have hfim : ∀ para total amount, Mantem I (do
      debitar tx.de total
      creditar para amount) := fun _ _ _ => .bind (debitar_mantem _ _) fun _ => creditar_mantem _ _
  exact .ite (.lift_bind fun _ => hfim _ _ _) (hfim _ _ _)

theorem stake_mantem [IgnoraConta I .staked] [IgnoraConta I .eavmManaged] (tx : Tx) (ctx : Ctx) :
    Mantem I (stake tx ctx) := by
  refine .get_bind fun s hs => ?_
  repeat with_reducible refine Mantem.lift_bind fun _ => ?_
  refine .bind (debitar_mantem _ _) fun _ => .modify_intro ?_
  exact comConta_mantem₂ .eavmManaged .staked
    (fun c => { c with eavmManaged := c.eavmManaged || tx.scheme == eavmScheme }) (fun _ => rfl)
    fun _ => rfl

end Contas

/-! ## Votes, resources, vesting and slashing -/

theorem setDebito_mantem [Ignora I .voterRewardDebt] (eleitor validador : String) (v : Amount)
    (s : State) (hs : I s) : I (s.setDebito eleitor validador v) := escreve .voterRewardDebt hs rfl

theorem poeDelegacao_mantem [Ignora I .delegations] (dono para : String) (v : Amount) (s : State)
    (hs : I s) : I (s.poeDelegacao dono para v) := escreve .delegations hs rfl

theorem tiraDelegacao_mantem [Ignora I .delegations] (dono para : String) (s : State) (hs : I s) :
    I (s.tiraDelegacao dono para) := by
  unfold State.tiraDelegacao
  split
  · exact hs
  · split_ifs <;> exact escreve .delegations hs rfl

theorem colocaVotos_mantem [Ignora I .candidateVotes] [Ignora I .voterRewardDebt] (conta : String)
    (votos : List (String × Amount)) : Mantem I (colocaVotos conta votos) := by
  induction votos with
  | nil => exact .pure_intro _
  | cons v resto ih =>
    refine .get_bind fun s hs => .lift_bind fun novo => ?_
    refine .modify_bind (fun s hs => escreve .candidateVotes hs rfl) ?_
    exact .modify_bind (fun s hs => setDebito_mantem _ _ _ s hs) ih

section Valor

variable [IgnoraConta I .balance]

theorem queimar_mantem [Ignora I .totalBurned] (a : String) (v : Amount) : Mantem I (queimar a v) :=
  .bind (debitar_mantem _ _) fun _ => .get_bind fun _ hs => .lift_bind fun _ =>
    .set_intro (escreve .totalBurned hs rfl)

theorem unstake_mantem [IgnoraConta I .staked] [Ignora I .unbonding] (tx : Tx) (ctx : Ctx) :
    Mantem I (unstake tx ctx) := by
  refine .get_bind fun s hs => ?_
  repeat with_reducible refine Mantem.lift_bind fun _ => ?_
  refine .bind (debitar_mantem _ _) fun _ => .modify_bind (comConta_mantem .staked fun _ => rfl) ?_
  exact .modify_intro fun s hs => escreve .unbonding hs rfl

theorem liquidarRecompensa_mantem [Ignora I .voterRewardDebt] (eleitor validador : String) :
    Mantem I (liquidarRecompensa eleitor validador) := by
  refine .get_bind fun s hs => ?_
  have hfim : Mantem I (modify (·.setDebito eleitor validador
      (s.rewardAccPerVote.getD validador 0)) : Op PUnit) :=
    .modify_intro (setDebito_mantem _ _ _)
  refine .ite (.lift_bind fun _ => .lift_bind fun _ => .ite ?_ hfim) hfim
  exact .bind (creditar_mantem _ _) fun _ => hfim

theorem retiraVotos_mantem [Ignora I .candidateVotes] [Ignora I .voterRewardDebt] (conta : String)
    (votos : List (String × Amount)) : Mantem I (retiraVotos conta votos) := by
  induction votos with
  | nil => exact .pure_intro _
  | cons v resto ih =>
    refine .bind (liquidarRecompensa_mantem _ _) fun _ => .get_bind fun s hs => ?_
    refine .lift_bind fun restante => .modify_bind (fun s hs => ?_) ih
    split_ifs <;> exact escreve .candidateVotes hs rfl

theorem aplicarVoto_mantem [Ignora I .votes] [Ignora I .candidateVotes] [Ignora I .voterRewardDebt]
    (cr : Cripto) (conta : String) (votos : Option JsonValue) :
    Mantem I (aplicarVoto cr conta votos) := by
  refine .get_bind fun s hs => .lift_bind fun analisados => ?_
  refine .bind (retiraVotos_mantem _ _) fun _ => .bind (colocaVotos_mantem _ _) fun _ => ?_
  exact .modify_intro fun s hs => escreve .votes hs rfl

theorem vote_mantem [Ignora I .votes] [Ignora I .candidateVotes] [Ignora I .voterRewardDebt]
    (cr : Cripto) (tx : Tx) (ctx : Ctx) : Mantem I (vote cr tx ctx) :=
  .get_bind fun _ _ => .lift_bind fun _ => .bind (aplicarVoto_mantem _ _ _) fun _ =>
    debitar_mantem _ _

theorem setCommission_mantem [Ignora I .pendingCommission] (tx : Tx) (ctx : Ctx) :
    Mantem I (setCommission tx ctx) := by
  refine .get_bind fun s hs => ?_
  repeat with_reducible refine Mantem.lift_bind fun _ => ?_
  refine .bind (debitar_mantem _ _) fun _ => ?_
  exact .modify_intro fun s hs => escreve .pendingCommission hs rfl

theorem claimVoterReward_mantem [Ignora I .voterRewardDebt] (cr : Cripto) (tx : Tx) (ctx : Ctx) :
    Mantem I (claimVoterReward cr tx ctx) := by
  refine .get_bind fun s hs => ?_
  repeat with_reducible refine Mantem.lift_bind fun _ => ?_
  exact .bind (debitar_mantem _ _) fun _ => liquidarRecompensa_mantem _ _

theorem vestingCreate_mantem [Ignora I .vesting] (cr : Cripto) (tx : Tx) (ctx : Ctx) :
    Mantem I (vestingCreate cr tx ctx) := by
  refine .get_bind fun s hs => ?_
  repeat with_reducible refine Mantem.lift_bind fun _ => ?_
  exact .bind (debitar_mantem _ _) fun _ => .modify_intro fun s hs => escreve .vesting hs rfl

theorem vestingClaim_mantem [Ignora I .vesting] (tx : Tx) (ctx : Ctx) :
    Mantem I (vestingClaim tx ctx) := by
  refine .get_bind fun s hs => ?_
  repeat with_reducible refine Mantem.lift_bind fun _ => ?_
  refine .bind (debitar_mantem _ _) fun _ => .bind (creditar_mantem _ _) fun _ => ?_
  refine .modify_intro fun s hs => ?_
  split_ifs <;> exact escreve .vesting hs rfl

theorem delegateResource_mantem [IgnoraConta I .delegated] [Ignora I .delegations] (cr : Cripto)
    (tx : Tx) (ctx : Ctx) : Mantem I (delegateResource cr tx ctx) := by
  refine .get_bind fun s hs => ?_
  repeat with_reducible refine Mantem.lift_bind fun _ => ?_
  refine .bind (debitar_mantem _ _) fun _ => ?_
  refine .modify_bind (comConta_mantem .delegated fun _ => rfl) ?_
  refine .modify_bind (comConta_mantem .delegated fun _ => rfl) ?_
  exact .modify_intro (poeDelegacao_mantem _ _ _)

theorem undelegateResource_mantem [IgnoraConta I .delegated] [Ignora I .delegations] (cr : Cripto)
    (tx : Tx) (ctx : Ctx) : Mantem I (undelegateResource cr tx ctx) := by
  refine .get_bind fun s hs => ?_
  repeat with_reducible refine Mantem.lift_bind fun _ => ?_
  refine .bind (debitar_mantem _ _) fun _ => ?_
  refine .modify_bind (comConta_mantem .delegated fun _ => rfl) ?_
  refine .modify_bind (comConta_mantem .delegated fun _ => rfl) (.modify_intro fun s hs => ?_)
  split_ifs
  · exact poeDelegacao_mantem _ _ _ s hs
  · exact tiraDelegacao_mantem _ _ s hs

omit [IgnoraConta I .balance] in
theorem cortaDelegacoes_mantem [IgnoraConta I .delegated] [Ignora I .delegations] (infrator : String)
    (es : List (String × Amount)) : ∀ (excesso : Amount) (s : State), I s →
      I (cortaDelegacoes infrator es excesso s) := by
  induction es with
  | nil => exact fun _ _ hs => hs
  | cons e resto ih =>
    intro excesso s hs
    unfold cortaDelegacoes
    split_ifs with h0
    · exact hs
    · refine ih _ _ ?_
      have hconta := comConta_mantem .delegated (a := e.1)
        (f := fun c => { c with delegatedIn := c.delegatedIn - min e.2 excesso }) (fun _ => rfl) s hs
      split
      · exact hconta
      · exact escreve .delegations hconta rfl

omit [IgnoraConta I .balance] in
theorem penaliza_mantem [IgnoraConta I .staked] [IgnoraConta I .delegated] [Ignora I .unbonding]
    [Ignora I .delegations] (infrator : String) (penalidade : Amount) (s : State) (hs : I s) :
    I (penaliza infrator penalidade s) := by
  have hrebaixa : ∀ t, I t → I (rebaixaDelegado infrator t) := by
    intro t ht
    unfold rebaixaDelegado
    dsimp only
    split_ifs
    · exact ht
    · have hcorta := cortaDelegacoes_mantem infrator (t.delegations.getD infrator ∅).entries
        ((t.account infrator).delegatedOut - (t.account infrator).staked) t ht
      refine comConta_mantem .delegated
        (f := fun c => { c with delegatedOut := (t.account infrator).staked }) (fun _ => rfl) _ ?_
      split
      · split_ifs
        · exact escreve .delegations hcorta rfl
        · exact hcorta
      · exact hcorta
  have hconta := comConta_mantem .staked (a := infrator) (f := fun c =>
    { c with staked := c.staked - min (s.account infrator).staked penalidade }) (fun _ => rfl) s hs
  unfold penaliza
  refine hrebaixa _ ?_
  split_ifs
  · exact escreve .unbonding hconta rfl
  · exact hconta

theorem slashDoubleSign_mantem [IgnoraConta I .staked] [IgnoraConta I .delegated]
    [Ignora I .unbonding] [Ignora I .delegations] [Ignora I .slashed] [Ignora I .totalBurned]
    (cr : Cripto) (tx : Tx) (ctx : Ctx) :
    Mantem I (slashDoubleSign cr tx ctx) := by
  unfold slashDoubleSign
  refine .get_bind fun s hs => ?_
  extract_lets resto
  have hresto : ∀ ab, Mantem I (resto ab) := by
    rintro ⟨a, b⟩
    refine .lift_bind fun ic => ?_
    repeat with_reducible refine Mantem.lift_bind fun _ => ?_
    refine .modify_bind (penaliza_mantem _ _) (.get_bind fun s hs => .lift_bind fun queimado => ?_)
    refine .set_bind (escreve .totalBurned hs rfl) (.bind (creditar_mantem _ _) fun _ => ?_)
    exact .modify_intro fun s hs => escreve .slashed hs rfl
  split
  · exact .lift_bind hresto
  · exact .lift_bind hresto

end Valor

/-! ## Tokens, collections and names -/

/-- The invariant does not see what a stored token becomes. -/
class RetocaTokens (I : State → Prop) : Prop where
  retoca : ∀ {s : State} {id : String} {token : Token} (novo : Token), I s →
    s.tokens.get? id = some token → I { s with tokens := s.tokens.insert id novo }

instance [Ignora I .tokens] : RetocaTokens I where
  retoca _ hs _ := escreve .tokens hs rfl

theorem comToken_mantem [RetocaTokens I] (id : String) (f : Token → Token) :
    Mantem I (TokenTx.comToken id f) :=
  .get_bind fun _ hs => .conferir fun token ht =>
    .set_intro (RetocaTokens.retoca (f token) hs (exigir_eq_ok.mp ht))

theorem mover_mantem [RetocaTokens I] (id de para : String) (amount : Amount) :
    Mantem I (TokenTx.mover id de para amount) := by
  refine .get_bind fun s hs => .conferir fun token ht => .lift_bind fun _ => ?_
  have hretoca := fun novo => RetocaTokens.retoca novo hs (exigir_eq_ok.mp ht)
  exact .set_bind (hretoca _) (.lift_bind fun _ => .set_intro (hretoca _))

theorem efeitoMetaTransfer_mantem [RetocaTokens I] (id de para : String) (amount : Amount)
    (height : ℕ) : Mantem I (TokenTx.efeitoMetaTransfer id de para amount height) := by
  refine .get_bind fun s hs => ?_
  repeat with_reducible refine Mantem.lift_bind fun _ => ?_
  exact mover_mantem _ _ _ _

theorem comColecao_mantem [Ignora I .nfts] (cid : String) (f : Collection → Collection) :
    Mantem I (NftTx.comColecao cid f) :=
  .get_bind fun _ hs => .lift_bind fun _ => .set_intro (escreve .nfts hs rfl)

theorem efeitoMultisigTransfer_mantem [Ignora I .nfts] (cr : Cripto)
    (colecao tokenId dona para : String) :
    Mantem I (NftTx.efeitoMultisigTransfer cr colecao tokenId dona para) := by
  refine .get_bind fun s hs => ?_
  repeat with_reducible refine Mantem.lift_bind fun _ => ?_
  exact comColecao_mantem _ _

section Ativos

variable [IgnoraConta I .balance] (cr : Cripto) (tx : Tx) (ctx : Ctx)

/-- The checks, the fee and one write of a token. -/
theorem taxaEToken_mantem [RetocaTokens I] (id : String) (f : Token → Token) :
    Mantem I (do
      debitar tx.de ctx.fee
      TokenTx.comToken id f) :=
  .bind (debitar_mantem _ _) fun _ => comToken_mantem _ _

theorem criar_mantem [Ignora I .tokens] : Mantem I (TokenTx.criar cr tx ctx) := by
  refine .get_bind fun s hs => ?_
  repeat with_reducible refine Mantem.lift_bind fun _ => ?_
  exact .bind (debitar_mantem _ _) fun _ => .modify_intro fun s hs => escreve .tokens hs rfl

theorem transferir_mantem [RetocaTokens I] : Mantem I (TokenTx.transferir cr tx ctx) := by
  refine .get_bind fun s hs => ?_
  repeat with_reducible refine Mantem.lift_bind fun _ => ?_
  exact .bind (debitar_mantem _ _) fun _ => mover_mantem _ _ _ _

theorem aprovar_mantem [RetocaTokens I] : Mantem I (TokenTx.aprovar cr tx ctx) := by
  refine .get_bind fun s hs => ?_
  repeat with_reducible refine Mantem.lift_bind fun _ => ?_
  exact taxaEToken_mantem _ _ _ _

theorem transferirDe_mantem [RetocaTokens I] : Mantem I (TokenTx.transferirDe cr tx ctx) := by
  refine .get_bind fun s hs => ?_
  repeat with_reducible refine Mantem.lift_bind fun _ => ?_
  refine .bind (debitar_mantem _ _) fun _ => .bind (comToken_mantem _ _) fun _ => ?_
  exact mover_mantem _ _ _ _

theorem emitir_mantem [RetocaTokens I] : Mantem I (TokenTx.emitir cr tx ctx) := by
  refine .get_bind fun s hs => ?_
  repeat with_reducible refine Mantem.lift_bind fun _ => ?_
  exact taxaEToken_mantem _ _ _ _

theorem queimarToken_mantem [RetocaTokens I] : Mantem I (TokenTx.queimar tx ctx) := by
  refine .get_bind fun s hs => ?_
  repeat with_reducible refine Mantem.lift_bind fun _ => ?_
  exact taxaEToken_mantem _ _ _ _

theorem pausar_mantem [RetocaTokens I] : Mantem I (TokenTx.pausar tx ctx) := by
  refine .get_bind fun s hs => ?_
  repeat with_reducible refine Mantem.lift_bind fun _ => ?_
  exact taxaEToken_mantem _ _ _ _

theorem bloquear_mantem [RetocaTokens I] : Mantem I (TokenTx.bloquear cr tx ctx) := by
  refine .get_bind fun s hs => ?_
  repeat with_reducible refine Mantem.lift_bind fun _ => ?_
  exact taxaEToken_mantem _ _ _ _

theorem congelar_mantem [RetocaTokens I] : Mantem I (TokenTx.congelar tx ctx) := by
  refine .get_bind fun s hs => ?_
  repeat with_reducible refine Mantem.lift_bind fun _ => ?_
  exact taxaEToken_mantem _ _ _ _

theorem descongelar_mantem [RetocaTokens I] : Mantem I (TokenTx.descongelar tx ctx) := by
  refine .get_bind fun s hs => ?_
  repeat with_reducible refine Mantem.lift_bind fun _ => ?_
  exact taxaEToken_mantem _ _ _ _

theorem nftCreate_mantem [Ignora I .nfts] : Mantem I (NftTx.nftCreate cr tx ctx) := by
  refine .get_bind fun s hs => ?_
  repeat with_reducible refine Mantem.lift_bind fun _ => ?_
  exact .bind (debitar_mantem _ _) fun _ => .modify_intro fun s hs => escreve .nfts hs rfl

/-- The fee and one write of a collection. -/
theorem taxaEColecao_mantem [Ignora I .nfts] (cid : String) (f : Collection → Collection) :
    Mantem I (do
      debitar tx.de ctx.fee
      NftTx.comColecao cid f) :=
  .bind (debitar_mantem _ _) fun _ => comColecao_mantem _ _

theorem nftMint_mantem [Ignora I .nfts] : Mantem I (NftTx.nftMint cr tx ctx) := by
  refine .get_bind fun s hs => ?_
  repeat with_reducible refine Mantem.lift_bind fun _ => ?_
  exact taxaEColecao_mantem _ _ _ _

theorem nftTransfer_mantem [Ignora I .nfts] : Mantem I (NftTx.nftTransfer cr tx ctx) := by
  refine .get_bind fun s hs => ?_
  repeat with_reducible refine Mantem.lift_bind fun _ => ?_
  exact taxaEColecao_mantem _ _ _ _

theorem nftApprove_mantem [Ignora I .nfts] : Mantem I (NftTx.nftApprove cr tx ctx) := by
  refine .get_bind fun s hs => ?_
  repeat with_reducible refine Mantem.lift_bind fun _ => ?_
  exact taxaEColecao_mantem _ _ _ _

theorem nftBurn_mantem [Ignora I .nfts] : Mantem I (NftTx.nftBurn tx ctx) := by
  refine .get_bind fun s hs => ?_
  repeat with_reducible refine Mantem.lift_bind fun _ => ?_
  exact taxaEColecao_mantem _ _ _ _

theorem nameRegister_mantem [Ignora I .names] [Ignora I .totalBurned] :
    Mantem I (NftTx.nameRegister cr tx ctx) := by
  refine .get_bind fun s hs => ?_
  repeat with_reducible refine Mantem.lift_bind fun _ => ?_
  refine .bind (debitar_mantem _ _) fun _ => .bind (queimar_mantem _ _) fun _ => ?_
  exact .modify_intro fun s hs => escreve .names hs rfl

theorem nameUpdate_mantem [Ignora I .names] : Mantem I (NftTx.nameUpdate cr tx ctx) := by
  refine .get_bind fun s hs => ?_
  repeat with_reducible refine Mantem.lift_bind fun _ => ?_
  exact .bind (debitar_mantem _ _) fun _ => .modify_intro fun s hs => escreve .names hs rfl

theorem nameTransfer_mantem [Ignora I .names] : Mantem I (NftTx.nameTransfer cr tx ctx) := by
  refine .get_bind fun s hs => ?_
  repeat with_reducible refine Mantem.lift_bind fun _ => ?_
  exact .bind (debitar_mantem _ _) fun _ => .modify_intro fun s hs => escreve .names hs rfl

theorem nameRelease_mantem [Ignora I .names] : Mantem I (NftTx.nameRelease tx ctx) := by
  refine .get_bind fun s hs => ?_
  repeat with_reducible refine Mantem.lift_bind fun _ => ?_
  exact .bind (debitar_mantem _ _) fun _ => .modify_intro fun s hs => escreve .names hs rfl

/-! ## Governance, oracles and sponsored transactions -/

theorem govPropose_mantem [Ignora I .proposals] : Mantem I (GovTx.govPropose cr tx ctx) := by
  refine .get_bind fun s hs => ?_
  repeat with_reducible refine Mantem.lift_bind fun _ => ?_
  exact .bind (cobrarTaxa_mantem _ _) fun _ => .modify_intro fun s hs => escreve .proposals hs rfl

theorem govVote_mantem [Ignora I .proposals] : Mantem I (GovTx.govVote tx ctx) := by
  refine .get_bind fun s hs => ?_
  repeat with_reducible refine Mantem.lift_bind fun _ => ?_
  exact .bind (cobrarTaxa_mantem _ _) fun _ => .modify_intro fun s hs => escreve .proposals hs rfl

theorem oracleRegister_mantem [Ignora I .oracles] : Mantem I (GovTx.oracleRegister tx ctx) := by
  refine .get_bind fun s hs => ?_
  repeat with_reducible refine Mantem.lift_bind fun _ => ?_
  exact .bind (debitar_mantem _ _) fun _ => .modify_intro fun s hs => escreve .oracles hs rfl

omit [IgnoraConta I .balance] in
theorem comNonce_mantem [IgnoraConta I .nonce] (a : String) (n : ℕ) :
    Mantem I (modify (·.comConta a fun c => { c with nonce := n }) : Op PUnit) :=
  .modify_intro (comConta_mantem .nonce fun _ => rfl)

theorem metaTransfer_mantem [IgnoraConta I .nonce] (inner : Tx) (recebido : ℕ) :
    Mantem I (GovTx.metaTransfer cr inner recebido) := by
  refine .get_bind fun s hs => ?_
  repeat with_reducible refine Mantem.lift_bind fun _ => ?_
  exact .bind (debitar_mantem _ _) fun _ => .bind (creditar_mantem _ _) fun _ => comNonce_mantem _ _

theorem metaTx_mantem [IgnoraConta I .nonce] [RetocaTokens I] (amb : Ambiente) :
    Mantem I (GovTx.metaTx amb tx ctx) := by
  refine .get_bind fun s hs => .lift_bind fun x => .ite ?_ (.lift_bind fun _ => ?_)
  · refine .lift_bind fun tokenId => .lift_bind fun valor => ?_
    exact .bind (efeitoMetaTransfer_mantem _ _ _ _ _) fun _ => comNonce_mantem _ _
  · exact metaTransfer_mantem _ _ _

end Ativos

end Eav7
