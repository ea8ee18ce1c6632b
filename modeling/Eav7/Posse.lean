import Eav7.Base.Acervo
import Eav7.Comite
import Eav7.Endossos

/-!
# The owners of the tokens of a collection

Every accepted action leaves the collections as they are, creates one, or does one thing
to one item, that the owner of the item, who was approved for it or the keys of the
owning account asked for.
-/

namespace Eav7

open Base
open GovTx (OpResolvida)

variable {amb : Ambiente} {cr : Cripto} {tx : Tx} {ctx : Ctx} {s t u : State} {a : Acao}

def Collection.acervo (col : Collection) : Acervo String String where
  proximo := col.nextId
  dono tokenId := (col.tokens.get? tokenId).map (·.owner)
  aprovado tokenId := col.approvals.get? tokenId

def State.acervos (s : State) (cid : String) : Option (Acervo String String) :=
  (s.nfts.get? cid).map Collection.acervo

/-- The collection and the token that a transaction names, whatever value it names them by. -/
def colecaoDe (tx : Tx) : String := NftTx.jsString (tx.campo "collection")
def tokenDe (tx : Tx) : String := NftTx.jsString (tx.campo "tokenId")

def textoDaColecao (txid : String) : String := s!"EAV721-COLLECTION:{txid}"

/-! ## What an action does to the collections -/

/-- A transaction of a type that names a collection. -/
structure Acao.Nomeia (a : Acao) (tipo : Tipo) (tx : Tx) (cid : String) : Prop where
  transacao : a.tx? = some tx
  tipo : a.tipo? = some tipo
  colecao : colecaoDe tx = cid

section

variable (amb : Ambiente) (s : State) (a : Acao)

/-- A multisignature transaction that executes the transfer of a token of an account. -/
def Acao.ExecutaEntrega (conta cid tokenId para : String) : Prop :=
  ∃ tx ctx e, a = .transacao tx ctx.height ctx.blockTs ∧ Endossa amb s tx ctx e ∧
    e.account = conta ∧ e.resolvida = some (.nftTransfer cid tokenId para)

/-- The action gives away or burns the token. -/
inductive Acao.Move (cid tokenId : String) : Prop
  | entrega {tx : Tx} (h : a.Nomeia .nftTransfer tx cid) (htoken : tokenDe tx = tokenId)
  | queima {tx : Tx} (h : a.Nomeia .nftBurn tx cid) (htoken : tokenDe tx = tokenId)
  | executa {conta para : String} (h : a.ExecutaEntrega amb s conta cid tokenId para)

/-- Who may do what to an item. -/
inductive Permite (cid : String) (ac : Acervo String String) : Lance String String → Prop
  | cunha {tx : Tx} {para : String} (h : a.Nomeia .nftMint tx cid) : Permite cid ac (.cunha para)
  | entrega {tx : Tx} {dono para : String} (h : a.Nomeia .nftTransfer tx cid)
      (hdono : ac.dono (tokenDe tx) = some dono)
      (hde : tx.de = dono ∨ ac.aprovado (tokenDe tx) = some tx.de) :
      Permite cid ac (.entrega (tokenDe tx) para)
  | executa {conta tokenId para : String} (h : a.ExecutaEntrega amb s conta cid tokenId para)
      (hdono : ac.dono tokenId = some conta) : Permite cid ac (.entrega tokenId para)
  | aprova {tx : Tx} {quem : String} (h : a.Nomeia .nftApprove tx cid)
      (hdono : ac.dono (tokenDe tx) = some tx.de) (hquem : tx.para = some quem) :
      Permite cid ac (.aprova (tokenDe tx) quem)
  | queima {tx : Tx} (h : a.Nomeia .nftBurn tx cid) (hdono : ac.dono (tokenDe tx) = some tx.de) :
      Permite cid ac (.queima (tokenDe tx))

inductive MudaPosse : (String → Option (Acervo String String)) → Prop
  | alheia (hmove : ∀ cid tokenId, ¬ a.Move amb s cid tokenId)
      (hmint : a.tipo? ≠ some .nftMint) : MudaPosse s.acervos
  | cria {tx : Tx} {txid : String} (htx : a.tx? = some tx) (htipo : a.tipo? = some .nftCreate)
      (hid : tx.id = some txid) :
      MudaPosse (Function.update s.acervos (amb.cripto.eavHashOne (textoDaColecao txid))
        (some .novo))
  | joga {cid : String} {ac : Acervo String String} {l : Lance String String}
      (hac : s.acervos cid = some ac) (hl : Permite amb s a cid ac l) :
      MudaPosse (Function.update s.acervos cid (some (ac.aplica toString l)))

end

theorem Permite.cabe {cid : String} {ac : Acervo String String} {l : Lance String String}
    (h : Permite amb s a cid ac l) : ac.Cabe l := by
  cases h with
  | cunha => trivial
  | entrega h hdono hde => exact ⟨_, hdono⟩
  | executa h hdono => exact ⟨_, hdono⟩
  | aprova h hdono hquem => exact ⟨_, hdono⟩
  | queima h hdono => exact ⟨_, hdono⟩

/-! ## The types tell the moves apart -/

theorem Acao.Nomeia.unica {tipo tipo' : Tipo} {tx tx' : Tx} {cid cid' : String}
    (h : a.Nomeia tipo tx cid) (h' : a.Nomeia tipo' tx' cid') :
    tipo = tipo' ∧ tx = tx' ∧ cid = cid' := by
  obtain rfl : tx = tx' := Option.some.inj (h.transacao.symm.trans h'.transacao)
  exact ⟨Option.some.inj (h.tipo.symm.trans h'.tipo), rfl, h.colecao.symm.trans h'.colecao⟩

theorem tipo?_transacao {tipo : Tipo} {height blockTs : ℕ}
    (h : Tipo.deTexto tx.txType = some tipo) :
    (Acao.transacao tx height blockTs).tipo? = some tipo := by
  unfold Acao.tipo? Acao.tx?
  rw [Option.bind_some, if_neg (fora_da_vm h), h]

theorem Endossa.tipo {e : Endosso} (h : Endossa amb s tx ctx e) :
    (Acao.transacao tx ctx.height ctx.blockTs).tipo? = some .multisigPropose ∨
      (Acao.transacao tx ctx.height ctx.blockTs).tipo? = some .multisigApprove := by
  cases h with
  | proposta htipo => exact .inl (tipo?_transacao htipo)
  | aprovacao htipo => exact .inr (tipo?_transacao htipo)

theorem Acao.ExecutaEntrega.tipo {conta cid tokenId para : String}
    (h : a.ExecutaEntrega amb s conta cid tokenId para) :
    a.tipo? = some .multisigPropose ∨ a.tipo? = some .multisigApprove := by
  obtain ⟨tx, ctx, e, rfl, he, -, -⟩ := h
  exact he.tipo

theorem Endossa.paga {e : Endosso} (h : Endossa amb s tx ctx e) : Paga s tx ctx := by
  cases h with
  | proposta htipo hpaga => exact hpaga
  | aprovacao htipo hpaga => exact hpaga

/-- A transaction stands for one operation. -/
theorem Endossa.unico {ctx' : Ctx} {e e' : Endosso} (h : Endossa amb s tx ctx e)
    (h' : Endossa amb s tx ctx' e') (hheight : ctx.height = ctx'.height)
    (hts : ctx.blockTs = ctx'.blockTs) : e = e' := by
  have hfee : ctx.fee = ctx'.fee := by
    obtain ⟨gb, htaxa⟩ := h.paga.taxa
    obtain ⟨gb', htaxa'⟩ := h'.paga.taxa
    rw [hheight, htaxa'] at htaxa
    exact (Prod.ext_iff.mp (Except.ok.inj htaxa)).2.symm
  obtain rfl : ctx = ctx' := by
    cases ctx
    cases ctx'
    dsimp only at hheight hts hfee
    rw [hheight, hts, hfee]
  cases h with
  | proposta htipo hpaga hp =>
    cases h' with
    | proposta htipo' hpaga' hp' => exact congrArg _ (Except.ok.inj (hp.symm.trans hp'))
    | aprovacao htipo' => cases htipo.symm.trans htipo'
  | aprovacao htipo hpaga ha =>
    cases h' with
    | proposta htipo' => cases htipo.symm.trans htipo'
    | aprovacao htipo' hpaga' ha' => exact congrArg _ (Except.ok.inj (ha.symm.trans ha'))

theorem Acao.ExecutaEntrega.unica {conta conta' cid cid' tokenId tokenId' para para' : String}
    (h : a.ExecutaEntrega amb s conta cid tokenId para)
    (h' : a.ExecutaEntrega amb s conta' cid' tokenId' para') :
    cid = cid' ∧ tokenId = tokenId' := by
  obtain ⟨tx, ctx, e, rfl, he, -, hop⟩ := h
  obtain ⟨tx', ctx', e', ha, he', -, hop'⟩ := h'
  injection ha with htx hheight hts
  subst htx
  obtain rfl := he.unico he' hheight hts
  cases hop.symm.trans hop'
  exact ⟨rfl, rfl⟩

/-- An action that moves an item does that to it. -/
theorem Permite.of_move {cid cid' tokenId : String} {ac : Acervo String String}
    {l : Lance String String} (h : Permite amb s a cid' ac l) (hmove : a.Move amb s cid tokenId) :
    cid' = cid ∧ l.Move tokenId := by
  have hfora : ∀ {tipo tx conta tokenId para} {cid cid' : String}, a.Nomeia tipo tx cid →
      tipo ≠ .multisigPropose → tipo ≠ .multisigApprove →
      ¬ a.ExecutaEntrega amb s conta cid' tokenId para := by
    intro tipo tx conta tokenId para cid cid' hn hp ha he
    rcases he.tipo with h | h
    · exact hp (Option.some.inj (hn.tipo.symm.trans h))
    · exact ha (Option.some.inj (hn.tipo.symm.trans h))
  cases hmove with
  | entrega hn htoken =>
    cases h with
    | entrega h' =>
      obtain ⟨-, rfl, rfl⟩ := h'.unica hn
      exact ⟨rfl, htoken⟩
    | executa h' => exact absurd h' (hfora hn (by decide) (by decide))
    | cunha h' => cases (h'.unica hn).1
    | aprova h' => cases (h'.unica hn).1
    | queima h' => cases (h'.unica hn).1
  | queima hn htoken =>
    cases h with
    | queima h' =>
      obtain ⟨-, rfl, rfl⟩ := h'.unica hn
      exact ⟨rfl, htoken⟩
    | executa h' => exact absurd h' (hfora hn (by decide) (by decide))
    | cunha h' => cases (h'.unica hn).1
    | aprova h' => cases (h'.unica hn).1
    | entrega h' => cases (h'.unica hn).1
  | executa he =>
    cases h with
    | executa h' => exact h'.unica he
    | cunha h' => exact absurd he (hfora h' (by decide) (by decide))
    | entrega h' => exact absurd he (hfora h' (by decide) (by decide))
    | aprova h' => exact absurd he (hfora h' (by decide) (by decide))
    | queima h' => exact absurd he (hfora h' (by decide) (by decide))

/-! ## What the handlers do -/

@[reducible] def Campo.dosNfts : Campo → Bool
  | nfts => true
  | _ => false

instance (c : Campo) [h : Alheio c.dosNfts] : Cego State.nfts c where
  cego s := by
    have hc := h.fora
    cases c <;> first | rfl | cases hc

theorem acervos_congr (h : t.nfts = s.nfts) : t.acervos = s.acervos := by
  unfold State.acervos
  rw [h]

theorem get?_insert_update {ν : Type} (m : OrdMap String ν) (k : String) (v : ν) :
    (m.insert k v).get? = Function.update m.get? k (some v) :=
  funext fun j => (OrdMap.get?_insert m k j v).trans (Function.update_apply _ _ _ _).symm

theorem get?_erase_update {ν : Type} (m : OrdMap String ν) (k : String) :
    (m.erase k).get? = Function.update m.get? k none :=
  funext fun j => (OrdMap.get?_erase m k j).trans (Function.update_apply _ _ _ _).symm

theorem map_update {ν μ : Type} (f : ν → μ) (g : String → Option ν) (k : String) (v : Option ν) :
    (fun j => (Function.update g k v j).map f) =
      Function.update (fun j => (g j).map f) k (v.map f) :=
  funext fun j => Function.apply_update (fun _ => Option.map f) g k v j

theorem acervos_insert {cid : String} (col : Collection) :
    State.acervos { s with nfts := s.nfts.insert cid col } =
      Function.update s.acervos cid (some col.acervo) := by
  unfold State.acervos
  dsimp only
  rw [get?_insert_update, map_update]
  rfl

namespace NftTx

theorem comColecao_eq_ok {cid : String} {f : Collection → Collection} {x : Unit}
    (h : comColecao cid f s = .ok x t) : ∃ col, s.nfts.get? cid = some col ∧
      t.acervos = Function.update s.acervos cid (some (f col).acervo) := by
  unfold comColecao at h
  rw [get_bind_run] at h
  obtain ⟨col, hcol, h⟩ := lift_bind_eq_ok.mp h
  obtain rfl := (EStateM.Result.ok.inj h).2
  exact ⟨col, exigir_eq_ok.mp hcol, acervos_insert _⟩

/-- A fee and one change of a collection that was found. -/
theorem taxaEColecao_eq_ok {de cid : String} {fee : Amount} {f : Collection → Collection}
    {col : Collection} {x : Unit} (hcol : s.nfts.get? cid = some col)
    (h : (do debitar de fee; comColecao cid f : Op Unit) s = .ok x t) :
    t.acervos = Function.update s.acervos cid (some (f col).acervo) := by
  obtain ⟨_, u, hdebita, h⟩ := bind_eq_ok.mp h
  have hnfts : u.nfts = s.nfts := Mantem.le (debitar_mantem _ _) hdebita
  obtain ⟨col', hcol', ht⟩ := comColecao_eq_ok h
  rw [hnfts] at hcol'
  obtain rfl := Option.some.inj (hcol.symm.trans hcol')
  rw [ht, acervos_congr hnfts]

theorem nftCreate_eq_ok {x : Unit} (h : nftCreate cr tx ctx s = .ok x t) : ∃ txid,
    tx.id = some txid ∧ t.acervos =
      Function.update s.acervos (cr.eavHashOne (textoDaColecao txid)) (some .novo) := by
  unfold nftCreate at h
  rw [get_bind_run] at h
  obtain ⟨name, -, h⟩ := lift_bind_eq_ok.mp h
  obtain ⟨_, -, h⟩ := lift_bind_eq_ok.mp h
  obtain ⟨symbol, -, h⟩ := lift_bind_eq_ok.mp h
  obtain ⟨txid, htxid, h⟩ := lift_bind_eq_ok.mp h
  obtain ⟨createdAt, -, h⟩ := lift_bind_eq_ok.mp h
  obtain ⟨_, -, h⟩ := lift_bind_eq_ok.mp h
  obtain ⟨_, u, hdebita, h⟩ := bind_eq_ok.mp h
  obtain rfl := (EStateM.Result.ok.inj h).2
  have hnfts : u.nfts = s.nfts := Mantem.le (debitar_mantem _ _) hdebita
  refine ⟨txid, exigir_eq_ok.mp htxid, (acervos_insert _).trans ?_⟩
  rw [acervos_congr hnfts]
  rfl

theorem acervo_cunha {col : Collection} (para uri : String) :
    Collection.acervo { col with
      nextId := col.nextId + 1
      tokens := col.tokens.insert (toString col.nextId) ⟨para, uri⟩ } =
        col.acervo.aplica toString (.cunha para) := by
  unfold Collection.acervo Acervo.aplica
  dsimp only
  rw [get?_insert_update, map_update]
  rfl

theorem nftMint_eq_ok {x : Unit} (h : nftMint cr tx ctx s = .ok x t) : ∃ col para,
    s.nfts.get? (colecaoDe tx) = some col ∧ t.acervos =
      Function.update s.acervos (colecaoDe tx) (some (col.acervo.aplica toString (.cunha para))) := by
  unfold nftMint at h
  rw [get_bind_run] at h
  obtain ⟨col, hcol, h⟩ := lift_bind_eq_ok.mp h
  obtain ⟨_, -, h⟩ := lift_bind_eq_ok.mp h
  obtain ⟨para, -, h⟩ := lift_bind_eq_ok.mp h
  obtain ⟨uri, -, h⟩ := lift_bind_eq_ok.mp h
  obtain ⟨_, -, h⟩ := lift_bind_eq_ok.mp h
  obtain ⟨proximo, hproximo, h⟩ := lift_bind_eq_ok.mp h
  have hcol := exigir_eq_ok.mp hcol
  obtain rfl : col.nextId + 1 = proximo := by
    unfold alturaApos at hproximo
    split_ifs at hproximo
    · exact Except.ok.inj hproximo
    · cases hproximo
  refine ⟨col, para, hcol, (taxaEColecao_eq_ok hcol h).trans ?_⟩
  rw [acervo_cunha]
  rfl

theorem acervo_entrega {col : Collection} {nft : NftToken} {tokenId : String} (para : String)
    (hnft : col.tokens.get? tokenId = some nft) :
    (entrega tokenId para col).acervo = col.acervo.aplica toString (.entrega tokenId para) := by
  unfold entrega Collection.acervo Acervo.aplica
  rw [hnft]
  dsimp only
  rw [get?_insert_update, map_update, get?_erase_update]
  rfl

theorem nftTransfer_eq_ok {x : Unit} (h : nftTransfer cr tx ctx s = .ok x t) :
    ∃ col dono para, s.nfts.get? (colecaoDe tx) = some col ∧
      col.acervo.dono (tokenDe tx) = some dono ∧
      (tx.de = dono ∨ col.acervo.aprovado (tokenDe tx) = some tx.de) ∧
      t.acervos = Function.update s.acervos (colecaoDe tx)
        (some (col.acervo.aplica toString (.entrega (tokenDe tx) para))) := by
  unfold nftTransfer at h
  rw [get_bind_run] at h
  obtain ⟨col, hcol, h⟩ := lift_bind_eq_ok.mp h
  obtain ⟨nft, hnft, h⟩ := lift_bind_eq_ok.mp h
  obtain ⟨_, hde, h⟩ := lift_bind_eq_ok.mp h
  obtain ⟨para, -, h⟩ := lift_bind_eq_ok.mp h
  obtain ⟨_, -, h⟩ := lift_bind_eq_ok.mp h
  have hcol := exigir_eq_ok.mp hcol
  have hnft : col.tokens.get? (tokenDe tx) = some nft := exigir_eq_ok.mp hnft
  refine ⟨col, nft.owner, para, hcol, congrArg (Option.map _) hnft, ?_, ?_⟩
  · by_cases hdono : tx.de = nft.owner
    · exact .inl hdono
    · have hde := recusar_eq_ok.mp hde
      rw [not_and, not_not] at hde
      exact .inr (hde (Ne.symm hdono))
  · rw [← acervo_entrega para hnft]
    exact taxaEColecao_eq_ok hcol h

theorem efeitoMultisigTransfer_eq_ok {cid tokenId dona para : String} {x : Unit}
    (h : efeitoMultisigTransfer cr cid tokenId dona para s = .ok x t) :
    ∃ col, s.nfts.get? cid = some col ∧ col.acervo.dono tokenId = some dona ∧
      t.acervos = Function.update s.acervos cid
        (some (col.acervo.aplica toString (.entrega tokenId para))) := by
  unfold efeitoMultisigTransfer at h
  rw [get_bind_run] at h
  obtain ⟨col, hcol, h⟩ := lift_bind_eq_ok.mp h
  obtain ⟨_, hdona, h⟩ := lift_bind_eq_ok.mp h
  obtain ⟨_, -, h⟩ := lift_bind_eq_ok.mp h
  have hcol := exigir_eq_ok.mp hcol
  have hdona := not_not.mp (recusar_eq_ok.mp hdona)
  obtain ⟨nft, hnft, -⟩ := Option.map_eq_some_iff.mp hdona
  obtain ⟨col', hcol', ht⟩ := comColecao_eq_ok h
  obtain rfl := Option.some.inj (hcol.symm.trans hcol')
  exact ⟨col, hcol, hdona, acervo_entrega para hnft ▸ ht⟩

theorem nftApprove_eq_ok {x : Unit} (h : nftApprove cr tx ctx s = .ok x t) :
    ∃ col quem, s.nfts.get? (colecaoDe tx) = some col ∧
      col.acervo.dono (tokenDe tx) = some tx.de ∧ tx.para = some quem ∧
      t.acervos = Function.update s.acervos (colecaoDe tx)
        (some (col.acervo.aplica toString (.aprova (tokenDe tx) quem))) := by
  unfold nftApprove at h
  rw [get_bind_run] at h
  obtain ⟨col, hcol, h⟩ := lift_bind_eq_ok.mp h
  obtain ⟨nft, hnft, h⟩ := lift_bind_eq_ok.mp h
  obtain ⟨_, hde, h⟩ := lift_bind_eq_ok.mp h
  obtain ⟨quem, hquem, h⟩ := lift_bind_eq_ok.mp h
  obtain ⟨_, -, h⟩ := lift_bind_eq_ok.mp h
  have hcol := exigir_eq_ok.mp hcol
  have hdono : col.acervo.dono (tokenDe tx) = some nft.owner :=
    congrArg (Option.map _) (exigir_eq_ok.mp hnft)
  rw [not_not.mp (recusar_eq_ok.mp hde)] at hdono
  have hacervo : Collection.acervo
      { col with approvals := col.approvals.insert (tokenDe tx) quem } =
        col.acervo.aplica toString (.aprova (tokenDe tx) quem) := by
    unfold Collection.acervo Acervo.aplica
    dsimp only
    rw [get?_insert_update]
  refine ⟨col, quem, hcol, hdono, (Option.filter_eq_some_iff.mp (exigir_eq_ok.mp hquem)).1, ?_⟩
  rw [← hacervo]
  exact taxaEColecao_eq_ok hcol h

theorem nftBurn_eq_ok {x : Unit} (h : nftBurn tx ctx s = .ok x t) :
    ∃ col, s.nfts.get? (colecaoDe tx) = some col ∧
      col.acervo.dono (tokenDe tx) = some tx.de ∧
      t.acervos = Function.update s.acervos (colecaoDe tx)
        (some (col.acervo.aplica toString (.queima (tokenDe tx)))) := by
  unfold nftBurn at h
  rw [get_bind_run] at h
  obtain ⟨col, hcol, h⟩ := lift_bind_eq_ok.mp h
  obtain ⟨nft, hnft, h⟩ := lift_bind_eq_ok.mp h
  obtain ⟨_, hde, h⟩ := lift_bind_eq_ok.mp h
  obtain ⟨_, -, h⟩ := lift_bind_eq_ok.mp h
  have hcol := exigir_eq_ok.mp hcol
  have hdono : col.acervo.dono (tokenDe tx) = some nft.owner :=
    congrArg (Option.map _) (exigir_eq_ok.mp hnft)
  rw [not_not.mp (recusar_eq_ok.mp hde)] at hdono
  have hacervo : Collection.acervo
      { col with
        tokens := col.tokens.erase (tokenDe tx)
        approvals := col.approvals.erase (tokenDe tx) } =
          col.acervo.aplica toString (.queima (tokenDe tx)) := by
    unfold Collection.acervo Acervo.aplica
    dsimp only
    rw [get?_erase_update, map_update, get?_erase_update]
    rfl
  refine ⟨col, hcol, hdono, ?_⟩
  rw [← hacervo]
  exact taxaEColecao_eq_ok hcol h

end NftTx

/-! ## The operations of the multisignature accounts -/

namespace GovTx

/-- An operation moves the collections when it is the transfer of a token. -/
theorem aplicarOp_posse {conta opId : String} {op : OpResolvida} {height : ℕ} {x : Unit}
    (h : aplicarOp cr conta op height opId s = .ok x t) :
    (t.nfts = s.nfts ∧ ∀ cid tokenId para, op ≠ .nftTransfer cid tokenId para) ∨
      ∃ cid tokenId para ac, op = .nftTransfer cid tokenId para ∧ s.acervos cid = some ac ∧
        ac.dono tokenId = some conta ∧ t.acervos = Function.update s.acervos cid
          (some (ac.aplica toString (.entrega tokenId para))) := by
  by_cases hop : ∃ cid tokenId para, op = .nftTransfer cid tokenId para
  · obtain ⟨cid, tokenId, para, rfl⟩ := hop
    obtain ⟨col, hcol, hdona, ht⟩ := NftTx.efeitoMultisigTransfer_eq_ok h
    exact .inr ⟨cid, tokenId, para, col.acervo, rfl, congrArg (Option.map _) hcol, hdona, ht⟩
  · have hnfts : Mantem (Le State.nfts (· = s.nfts)) (aplicarOp cr conta op height opId) := by
      refine aplicarOp_partes cr conta op height opId (fun perm _ => ?_) (fun _ _ _ _ => ?_) ?_
      · exact aplicarPermissionChange_mantem conta perm
      · exact efeitoMetaTransfer_mantem _ _ _ _ _
      · intro cid tokenId para h
        exact absurd ⟨cid, tokenId, para, h⟩ hop
    exact .inl ⟨Mantem.le hnfts h, fun cid tokenId para h => hop ⟨cid, tokenId, para, h⟩⟩

/-- What a multisignature transaction does once its fee is paid. -/
theorem posse_of_endosso {e : Endosso} (he : Endossa amb s tx ctx e) (hu : u.nfts = s.nfts)
    (h : (e.resolvida = none ∧ t.nfts = u.nfts) ∨ ∃ op, e.resolvida = some op ∧
      aplicarOp amb.cripto e.account op ctx.height e.opId u = .ok ⟨⟩ t) :
    MudaPosse amb s (.transacao tx ctx.height ctx.blockTs) t.acervos := by
  have hmint : (Acao.transacao tx ctx.height ctx.blockTs).tipo? ≠ some .nftMint := by
    rcases he.tipo with htipo | htipo <;> rw [htipo] <;> decide
  have halheia : t.nfts = s.nfts →
      (∀ cid tokenId para, e.resolvida ≠ some (.nftTransfer cid tokenId para)) →
      MudaPosse amb s (.transacao tx ctx.height ctx.blockTs) t.acervos := by
    intro ht hop
    rw [acervos_congr ht]
    refine .alheia (fun cid tokenId hmove => ?_) hmint
    cases hmove with
    | entrega hn => rcases he.tipo with htipo | htipo <;> cases htipo.symm.trans hn.tipo
    | queima hn => rcases he.tipo with htipo | htipo <;> cases htipo.symm.trans hn.tipo
    | executa hx =>
      obtain ⟨tx', ctx', e', ha, he', -, hop'⟩ := hx
      injection ha with htx hheight hts
      subst htx
      obtain rfl := he.unico he' hheight hts
      exact hop _ _ _ hop'
  obtain ⟨hnone, ht⟩ | ⟨op, hop, hx⟩ := h
  · refine halheia (ht.trans hu) fun cid tokenId para h => ?_
    cases hnone.symm.trans h
  obtain ⟨ht, hfora⟩ | ⟨cid, tokenId, para, ac, rfl, hac, hdono, ht⟩ := aplicarOp_posse hx
  · refine halheia (ht.trans hu) fun cid tokenId para h => ?_
    exact hfora cid tokenId para (Option.some.inj (hop.symm.trans h))
  · rw [acervos_congr hu] at hac ht
    rw [ht]
    exact .joga hac (.executa ⟨tx, ctx, e, rfl, he, rfl, hop⟩ hdono)

theorem cobrarTaxa_nfts {x : Unit} (h : cobrarTaxa tx ctx s = .ok x t) : t.nfts = s.nfts :=
  Mantem.le (π := State.nfts) (cobrarTaxa_mantem tx ctx) h

theorem multisigPropose_posse (htipo : Tipo.deTexto tx.txType = some .multisigPropose)
    (hpaga : ∀ u, cobrarTaxa tx ctx s = .ok ⟨⟩ u → Paga s tx ctx)
    (h : multisigPropose amb.cripto tx ctx s = .ok ⟨⟩ t) :
    MudaPosse amb s (.transacao tx ctx.height ctx.blockTs) t.acervos := by
  unfold multisigPropose at h
  rw [get_bind_run] at h
  obtain ⟨p, hp, h⟩ := lift_bind_eq_ok.mp h
  obtain ⟨_, u, hu, h⟩ := bind_eq_ok.mp h
  refine posse_of_endosso (.proposta htipo (hpaga u hu) hp) (cobrarTaxa_nfts hu) ?_
  change (p.resolvida = none ∧ _) ∨ ∃ op, p.resolvida = some op ∧ _
  cases hop : p.resolvida with
  | some op =>
    rw [hop] at h
    exact .inr ⟨op, rfl, h⟩
  | none =>
    rw [hop] at h
    obtain rfl := (EStateM.Result.ok.inj h).2
    exact .inl ⟨rfl, rfl⟩

theorem multisigApprove_posse (htipo : Tipo.deTexto tx.txType = some .multisigApprove)
    (hpaga : ∀ u, cobrarTaxa tx ctx s = .ok ⟨⟩ u → Paga s tx ctx)
    (h : multisigApprove amb.cripto tx ctx s = .ok ⟨⟩ t) :
    MudaPosse amb s (.transacao tx ctx.height ctx.blockTs) t.acervos := by
  unfold multisigApprove at h
  rw [get_bind_run] at h
  obtain ⟨p, hp, h⟩ := lift_bind_eq_ok.mp h
  obtain ⟨_, u, hu, h⟩ := bind_eq_ok.mp h
  have he : Endossa amb s tx ctx p.endosso := .aprovacao htipo (hpaga u hu) hp
  have hnfts := cobrarTaxa_nfts hu
  cases hop : p.resolvida with
  | some op =>
    rw [hop] at h
    exact posse_of_endosso (u := { u with pendingOps := u.pendingOps.erase p.opId }) he hnfts
      (.inr ⟨op, hop, h⟩)
  | none =>
    rw [hop] at h
    obtain rfl := (EStateM.Result.ok.inj h).2
    exact posse_of_endosso he hnfts (.inl ⟨hop, rfl⟩)

end GovTx

/-- An action of a type that writes no collection. -/
theorem MudaPosse.de_fora (ht : t.nfts = s.nfts)
    (hfora : ∀ {tipo : Tipo}, Campo.nfts ∈ tipo.pegada → a.tipo? ≠ some tipo) :
    MudaPosse amb s a t.acervos := by
  rw [acervos_congr ht]
  refine .alheia (fun cid tokenId hmove => ?_) (hfora (by decide))
  cases hmove with
  | entrega h => exact hfora (by decide) h.tipo
  | queima h => exact hfora (by decide) h.tipo
  | executa h => exact h.tipo.elim (hfora (by decide)) (hfora (by decide))

theorem alheio_dosNfts {c : Campo} (h : c ≠ .nfts) : Alheio c.dosNfts :=
  ⟨by cases c <;> first | rfl | exact absurd rfl h⟩

/-- An accepted action does one of the things. -/
theorem Acao.Aceita.mudaPosse (ha : a.Aceita amb s t) : MudaPosse amb s a t.acervos := by
  by_cases hnfts : Campo.nfts ∈ a.pegada
  case neg =>
    refine .de_fora (ha.le fun c hc => ?_) fun htipo h => hnfts (Acao.pegada_of_tipo h htipo)
    have := alheio_dosNfts fun h => hnfts (h ▸ hc)
    infer_instance
  obtain ⟨tx, height, blockTs, tipo, rfl, htipo, ⟨d⟩⟩ := ha.despacho rfl hnfts
  have htexto : Tipo.deTexto tx.txType = some tipo := by
    unfold Acao.tipo? Acao.tx? at htipo
    rw [Option.bind_some] at htipo
    split_ifs at htipo
    exact htipo
  have hpaga : ∀ u, GovTx.cobrarTaxa tx ⟨height, blockTs, d.fee⟩ s = .ok ⟨⟩ u →
      Paga s tx ⟨height, blockTs, d.fee⟩ :=
    fun u hu => ⟨⟨_, d.entrada⟩, ⟨_, d.taxa⟩, u, hu⟩
  have hm := d.maneja
  rw [acervos_congr (d.le (π := State.nfts))]
  by_cases hpegada : Campo.nfts ∈ tipo.pegada
  case neg =>
    refine .de_fora (manipulador_le hm fun c hc => ?_) ?_
    · have := alheio_dosNfts fun h => hpegada (h ▸ hc)
      infer_instance
    · rintro tipo' htipo' h
      obtain rfl := Option.some.inj (htipo.symm.trans h)
      exact hpegada htipo'
  cases tipo
  all_goals first | exact absurd hpegada (by decide) | skip
  case nftCreate =>
    obtain ⟨txid, hid, ht⟩ := NftTx.nftCreate_eq_ok hm
    rw [ht]
    exact .cria rfl htipo hid
  case nftMint =>
    obtain ⟨col, para, hcol, ht⟩ := NftTx.nftMint_eq_ok hm
    rw [ht]
    exact .joga (congrArg (Option.map _) hcol) (.cunha ⟨rfl, htipo, rfl⟩)
  case nftTransfer =>
    obtain ⟨col, dono, para, hcol, hdono, hde, ht⟩ := NftTx.nftTransfer_eq_ok hm
    rw [ht]
    exact .joga (congrArg (Option.map _) hcol) (.entrega ⟨rfl, htipo, rfl⟩ hdono hde)
  case nftApprove =>
    obtain ⟨col, quem, hcol, hdono, hquem, ht⟩ := NftTx.nftApprove_eq_ok hm
    rw [ht]
    exact .joga (congrArg (Option.map _) hcol) (.aprova ⟨rfl, htipo, rfl⟩ hdono hquem)
  case nftBurn =>
    obtain ⟨col, hcol, hdono, ht⟩ := NftTx.nftBurn_eq_ok hm
    rw [ht]
    exact .joga (congrArg (Option.map _) hcol) (.queima ⟨rfl, htipo, rfl⟩ hdono)
  case multisigPropose => exact GovTx.multisigPropose_posse htexto hpaga hm
  case multisigApprove => exact GovTx.multisigApprove_posse htexto hpaga hm

end Eav7
