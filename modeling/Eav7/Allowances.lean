import Eav7.Controle
import Eav7.Cronograma

/-!
# Allowances over a run

What a spender may still move of an owner's tokens is written by an approval and by the
spender's own transfers, and by nothing else. So from an approval to the next one, what the
spender moved and what is left of the allowance make up the amount approved.
-/

namespace Eav7

open Base

variable {amb : Ambiente} {s t s₀ : State} {a : Acao} {id : String}

/-! ## The allowances of a state -/

/-- What a spender may move of an owner's balance of a token, nothing of one that does not
exist. -/
def State.allowance (s : State) (id owner spender : String) : Amount :=
  (s.tokens.get? id).elim 0 (·.allowance owner spender)

/-- The allowances once one of them is written. -/
def comAllowance (f : String → String → String → Amount) (id owner spender : String) (x : Amount) :
    String → String → String → Amount :=
  fun k o sp => if k = id ∧ o = owner ∧ sp = spender then x else f k o sp

theorem allowance_of_get? {tk : Token} (h : s.tokens.get? id = some tk) :
    s.allowance id = tk.allowance := by
  funext o sp
  unfold State.allowance
  rw [h]
  rfl

theorem allowance_insert (tk : Token) (k : String) :
    State.allowance { s with tokens := s.tokens.insert id tk } k =
      if k = id then tk.allowance else s.allowance k := by
  funext o sp
  unfold State.allowance
  rw [OrdMap.get?_insert]
  split_ifs <;> rfl

/-- Rewriting a stored token under the same allowances. -/
theorem allowance_reescreve {tk novo : Token} (htk : s.tokens.get? id = some tk)
    (hnovo : novo.allowances = tk.allowances) :
    State.allowance { s with tokens := s.tokens.insert id novo } = s.allowance := by
  funext k
  rw [allowance_insert]
  split_ifs with hk
  · subst hk
    rw [allowance_of_get? htk]
    unfold Token.allowance
    rw [hnovo]
  · rfl

/-- Writing an allowance of a stored token. -/
theorem allowance_escreve {tk : Token} (htk : s.tokens.get? id = some tk) (owner spender : String)
    (x : Amount) :
    State.allowance { s with tokens := s.tokens.insert id { tk with
      allowances := tk.allowances.insert owner
        ((tk.allowances.getD owner ∅).insert spender x) } } =
      comAllowance s.allowance id owner spender x := by
  funext k o sp
  rw [allowance_insert]
  unfold comAllowance
  by_cases hk : k = id
  · subst hk
    rw [if_pos rfl, allowance_of_get? htk]
    unfold Token.allowance
    rw [OrdMap.getD_insert]
    by_cases ho : o = owner
    · subst ho
      rw [if_pos rfl, OrdMap.getD_insert]
      simp
    · rw [if_neg ho, if_neg fun h => ho h.2.1]
  · rw [if_neg hk, if_neg fun h => hk h.1]

/-- The field of the state that holds the allowances. -/
@[reducible] def Campo.dosTokens : Campo → Bool
  | tokens => true
  | _ => false

instance (c : Campo) [h : Alheio c.dosTokens] : Cego State.allowance c where
  cego s := by
    have hc := h.fora
    cases c <;> first | rfl | cases hc

/-! ## The handlers that leave the allowances alone -/

section

variable {P : (String → String → String → Amount) → Prop} {tx : Tx} {ctx : Ctx}

theorem mantem_reescreve {tk novo : Token} (hs : Le State.allowance P s)
    (htk : s.tokens.get? id = some tk) (hnovo : novo.allowances = tk.allowances) :
    Le State.allowance P { s with tokens := s.tokens.insert id novo } :=
  (congrArg P (allowance_reescreve htk hnovo)).mpr hs

namespace TokenTx

theorem comToken_allowance {f : Token → Token} (hf : ∀ t, (f t).allowances = t.allowances)
    (id : String) : Mantem (Le State.allowance P) (comToken id f) :=
  .get_bind fun _ hs => .conferir fun tk htk =>
    .set_intro (mantem_reescreve hs (exigir_eq_ok.mp htk) (hf tk))

theorem mover_allowance (id de para : String) (x : Amount) :
    Mantem (Le State.allowance P) (mover id de para x) := by
  refine .get_bind fun s hs => .conferir fun tk htk => .lift_bind fun _ => ?_
  have hreescreve (saldos : OrdMap String Amount) : Le State.allowance P
      { s with tokens := s.tokens.insert id { tk with balances := saldos } } :=
    mantem_reescreve hs (exigir_eq_ok.mp htk) rfl
  exact .set_bind (hreescreve _) (.lift_bind fun _ => .set_intro (hreescreve _))

theorem efeitoMetaTransfer_allowance (id de para : String) (x : Amount) (height : ℕ) :
    Mantem (Le State.allowance P) (efeitoMetaTransfer id de para x height) := by
  refine .get_bind fun s hs => ?_
  repeat with_reducible refine Mantem.lift_bind fun _ => ?_
  exact mover_allowance _ _ _ _

theorem transferir_allowance (cr : Cripto) :
    Mantem (Le State.allowance P) (transferir cr tx ctx) := by
  refine .get_bind fun s hs => ?_
  repeat with_reducible refine Mantem.lift_bind fun _ => ?_
  exact .bind (debitar_mantem _ _) fun _ => mover_allowance _ _ _ _

/-- The administration of a token writes other fields of it. -/
theorem administra_allowance {tipo : Tipo}
    (h : tipo ∈ [Tipo.tokenMint, .tokenBurn, .tokenPause, .tokenUnpause, .tokenBlacklist,
      .tokenFreeze, .tokenUnfreeze]) :
    Mantem (Le State.allowance P) (manipulador amb tx ctx tipo) := by
  simp only [List.mem_cons, List.not_mem_nil, or_false] at h
  rcases h with rfl | rfl | rfl | rfl | rfl | rfl | rfl
  all_goals
    refine .get_bind fun s hs => ?_
    repeat with_reducible refine Mantem.lift_bind fun _ => ?_
    exact .bind (debitar_mantem _ _) fun _ => comToken_allowance (by exact fun _ => rfl) _

/-- A new token has an id that no token has, and no allowances. -/
theorem criar_allowance {cr : Cripto} {u : Unit} (h : criar cr tx ctx s = .ok u t) :
    t.allowance = s.allowance := by
  unfold criar at h
  rw [get_bind_run] at h
  obtain ⟨params, -, h⟩ := lift_bind_eq_ok.mp h
  obtain ⟨_, -, h⟩ := lift_bind_eq_ok.mp h
  obtain ⟨txId, -, h⟩ := lift_bind_eq_ok.mp h
  obtain ⟨_, hnovo, h⟩ := lift_bind_eq_ok.mp h
  obtain ⟨createdAt, -, h⟩ := lift_bind_eq_ok.mp h
  obtain ⟨_, -, h⟩ := lift_bind_eq_ok.mp h
  obtain ⟨⟨⟩, v, hdebita, h⟩ := bind_eq_ok.mp h
  obtain ⟨-, rfl⟩ := debitar_eq_ok hdebita
  cases h
  have hnenhum := OrdMap.contains_eq_false.mp (Bool.eq_false_iff.mpr (recusar_eq_ok.mp hnovo))
  funext k
  refine (allowance_insert _ k).trans ?_
  split_ifs with hk
  · funext o sp
    unfold State.allowance
    rw [hk, hnenhum]
    rfl
  · rfl

end TokenTx

namespace GovTx

theorem metaTx_allowance : Mantem (Le State.allowance P) (metaTx amb tx ctx) := by
  refine .get_bind fun s hs => .lift_bind fun x => .ite ?_ (.lift_bind fun _ => ?_)
  · refine .lift_bind fun id => .lift_bind fun valor => ?_
    exact .bind (TokenTx.efeitoMetaTransfer_allowance _ _ _ _ _) fun _ => comNonce_mantem _ _
  · exact metaTransfer_mantem _ _ _

theorem aplicarOp_allowance (cr : Cripto) (account : String) (op : OpResolvida) (height : ℕ)
    (opId : String) : Mantem (Le State.allowance P) (aplicarOp cr account op height opId) :=
  aplicarOp_partes cr account op height opId
    (fun perm _ => aplicarPermissionChange_mantem account perm)
    (fun _ _ _ _ => TokenTx.efeitoMetaTransfer_allowance _ _ _ _ _)
    fun _ _ _ _ => efeitoMultisigTransfer_mantem _ _ _ _ _

theorem multisigPropose_allowance (cr : Cripto) :
    Mantem (Le State.allowance P) (multisigPropose cr tx ctx) := by
  refine .get_bind fun s hs => .lift_bind fun p => .bind (cobrarTaxa_mantem tx ctx) fun _ => ?_
  split
  · exact aplicarOp_allowance _ _ _ _ _
  · exact .modify_intro fun _ hs => hs

theorem multisigApprove_allowance (cr : Cripto) :
    Mantem (Le State.allowance P) (multisigApprove cr tx ctx) := by
  refine .get_bind fun s hs => .lift_bind fun p => .bind (cobrarTaxa_mantem tx ctx) fun _ => ?_
  split
  · exact .modify_bind (fun _ hs => hs) (aplicarOp_allowance _ _ _ _ _)
  · exact .modify_intro fun _ hs => hs

end GovTx

namespace BridgeTx

theorem travarToken_allowance (id de : String) (x : Amount) :
    Mantem (Le State.allowance P) (travarToken id de x) := by
  refine .get_bind fun s hs => .conferir fun tk htk => .lift_bind fun _ => ?_
  refine .set_bind (mantem_reescreve hs (exigir_eq_ok.mp htk) rfl) ?_
  exact .get_bind fun s hs => .lift_bind fun _ => .modify_intro fun _ hs => hs

theorem liberar_allowance (token : Option String) (para : String) (x : Amount) :
    Mantem (Le State.allowance P) (liberar token para x) := by
  unfold liberar
  split
  case h_1 id =>
    intro s hs
    refine Runs.get_bind (Runs.conferir hs fun travado _ => Runs.modify_bind ?_)
    refine Runs.conferir hs fun tk htk => Runs.conferir hs fun _ _ => Runs.modify_intro ?_
    exact mantem_reescreve hs (exigir_eq_ok.mp htk) rfl
  case h_2 =>
    refine .get_bind fun s hs => .lift_bind fun travado => ?_
    exact .modify_bind (fun s hs => hs) (creditar_mantem _ _)

theorem bridgeOut_allowance (cr : Cripto) :
    Mantem (Le State.allowance P) (bridgeOut cr tx ctx) := by
  refine .get_bind fun s hs => ?_
  repeat with_reducible refine Mantem.lift_bind fun _ => ?_
  split
  · refine .bind (debitar_mantem _ _) fun _ => .bind (travarToken_allowance _ _ _) fun _ => ?_
    exact .modify_intro fun _ hs => hs
  · refine .bind (debitar_mantem _ _) fun _ => .bind (travarNativo_mantem _) fun _ => ?_
    exact .modify_intro fun _ hs => hs

theorem bridgeIn_allowance (cr : Cripto) :
    Mantem (Le State.allowance P) (bridgeIn cr tx ctx) := by
  refine .get_bind fun s hs => .lift_bind fun dep => .modify_bind (fun _ hs => hs) ?_
  exact .bind (liberar_allowance _ _ _) fun _ => .modify_intro fun _ hs => hs

end BridgeTx

/-- The handlers of the other types leave the allowances alone. -/
theorem manipulador_allowance {tipo : Tipo} (hcria : tipo ≠ .tokenCreate)
    (haprova : tipo ≠ .tokenApprove) (hgasta : tipo ≠ .tokenTransferFrom) :
    Mantem (Le State.allowance P) (manipulador amb tx ctx tipo) := by
  by_cases hadmin : tipo ∈ [Tipo.tokenMint, .tokenBurn, .tokenPause, .tokenUnpause,
    .tokenBlacklist, .tokenFreeze, .tokenUnfreeze]
  · exact TokenTx.administra_allowance hadmin
  by_cases hmove : tipo ∈ [Tipo.tokenTransfer, .metaTx, .multisigPropose, .multisigApprove,
    .bridgeIn, .bridgeOut]
  · simp only [List.mem_cons, List.not_mem_nil, or_false] at hmove
    rcases hmove with rfl | rfl | rfl | rfl | rfl | rfl
    · exact TokenTx.transferir_allowance _
    · exact GovTx.metaTx_allowance
    · exact GovTx.multisigPropose_allowance _
    · exact GovTx.multisigApprove_allowance _
    · exact BridgeTx.bridgeIn_allowance _
    · exact BridgeTx.bridgeOut_allowance _
  have hfora : ∀ c ∈ tipo.pegada, c.dosTokens = false := by
    cases tipo <;> first | decide | simp_all
  refine manipulador_pegada tx ctx fun c hc => ?_
  have : Alheio c.dosTokens := ⟨hfora c hc⟩
  infer_instance

end

/-! ## The approval and the spending -/

/-- An amount that goes from a holder of a token to another address, or to itself. -/
def Movido (id owner para : String) (x : Amount) (s t : State) : Prop :=
  ∀ k addr, t.saldoEm k addr + (if k = id ∧ addr = owner then x else 0) =
    s.saldoEm k addr + if k = id ∧ addr = para then x else 0

namespace TokenTx

theorem saldoEm_insert (tk : Token) (k addr : String) :
    State.saldoEm { s with tokens := s.tokens.insert id tk } k addr =
      if k = id then tk.saldo addr else s.saldoEm k addr := by
  unfold State.saldoEm
  rw [OrdMap.get?_insert]
  split_ifs <;> rfl

theorem comToken_eq_ok {f : Token → Token} {u : Unit} (h : comToken id f s = .ok u t) :
    ∃ tk, s.tokens.get? id = some tk ∧ t = { s with tokens := s.tokens.insert id (f tk) } := by
  unfold comToken at h
  rw [get_bind_run] at h
  obtain ⟨tk, htk, h⟩ := lift_bind_eq_ok.mp h
  cases h
  exact ⟨tk, exigir_eq_ok.mp htk, rfl⟩

theorem mover_eq_ok {de para : String} {x : Amount} {u : Unit} (h : mover id de para x s = .ok u t) :
    Movido id de para x s t ∧ t.allowance = s.allowance := by
  refine ⟨?_, (mover_allowance (P := (· = s.allowance)) id de para x).ok rfl h⟩
  unfold mover at h
  rw [get_bind_run] at h
  obtain ⟨tk, htk, h⟩ := lift_bind_eq_ok.mp h
  obtain ⟨_, hsaldo, h⟩ := lift_bind_eq_ok.mp h
  have hsaldo : x ≤ tk.balances.getD de 0 := Nat.le_of_not_lt (recusar_eq_ok.mp hsaldo)
  rw [set_bind_run] at h
  obtain ⟨_, -, h⟩ := lift_bind_eq_ok.mp h
  cases h
  intro k addr
  rw [saldoEm_insert]
  by_cases hk : k = id
  · subst hk
    rw [if_pos rfl, saldoEm_of_get? (exigir_eq_ok.mp htk)]
    simp only [true_and]
    exact Razao.saldo_aplica (r := ⟨tk.balances, 0, 0⟩) (l := .transfere de para x) hsaldo addr
  · rw [if_neg hk, if_neg fun h => hk h.1, if_neg fun h => hk h.1]

/-- An accepted approval writes the amount it names. -/
theorem aprovar_eq_ok {cr : Cripto} {tx : Tx} {ctx : Ctx} {u : Unit} (hs : s.livro.EmDia)
    (h : aprovar cr tx ctx s = .ok u t) :
    ∃ id spender x, campoTexto tx "token" = some id ∧ tx.para = some spender ∧
      valor tx = .ok x ∧ t.allowance = comAllowance s.allowance id tx.de spender x := by
  unfold aprovar at h
  rw [get_bind_run] at h
  obtain ⟨spender, hspender, h⟩ := lift_bind_eq_ok.mp h
  obtain ⟨x, hx, h⟩ := lift_bind_eq_ok.mp h
  obtain ⟨tk, htk, h⟩ := lift_bind_eq_ok.mp h
  obtain ⟨_, -, h⟩ := lift_bind_eq_ok.mp h
  obtain ⟨⟨⟩, v, hdebita, h⟩ := bind_eq_ok.mp h
  obtain ⟨-, rfl⟩ := debitar_eq_ok hdebita
  obtain ⟨tk', htk', rfl⟩ := comToken_eq_ok h
  obtain ⟨-, hid⟩ := buscar_eq_ok hs htk
  have hspender := (Option.filter_eq_some_iff.mp (exigir_eq_ok.mp hspender)).1
  exact ⟨tk.id, spender, x, hid, hspender, hx, allowance_escreve htk' tx.de spender x⟩

/-- An accepted transfer of a spender takes what it moves from the allowance. -/
theorem transferirDe_eq_ok {cr : Cripto} {tx : Tx} {ctx : Ctx} {u : Unit} (hs : s.livro.EmDia)
    (h : transferirDe cr tx ctx s = .ok u t) :
    ∃ id owner para x, campoTexto tx "token" = some id ∧ campoTexto tx "owner" = some owner ∧
      tx.para = some para ∧ valor tx = .ok x ∧ x ≤ s.allowance id owner tx.de ∧
      t.allowance = comAllowance s.allowance id owner tx.de (s.allowance id owner tx.de - x) ∧
      Movido id owner para x s t := by
  unfold transferirDe at h
  rw [get_bind_run] at h
  obtain ⟨para, hpara, h⟩ := lift_bind_eq_ok.mp h
  obtain ⟨x, hx, h⟩ := lift_bind_eq_ok.mp h
  obtain ⟨_, hvalido, h⟩ := lift_bind_eq_ok.mp h
  obtain ⟨tk, htk, h⟩ := lift_bind_eq_ok.mp h
  obtain ⟨_, -, h⟩ := lift_bind_eq_ok.mp h
  obtain ⟨_, -, h⟩ := lift_bind_eq_ok.mp h
  obtain ⟨_, hcabe, h⟩ := lift_bind_eq_ok.mp h
  obtain ⟨_, -, h⟩ := lift_bind_eq_ok.mp h
  obtain ⟨_, -, h⟩ := lift_bind_eq_ok.mp h
  obtain ⟨⟨⟩, v, hdebita, h⟩ := bind_eq_ok.mp h
  obtain ⟨-, rfl⟩ := debitar_eq_ok hdebita
  obtain ⟨⟨⟩, w, hescreve, hmove⟩ := bind_eq_ok.mp h
  obtain ⟨tk', htk', rfl⟩ := comToken_eq_ok hescreve
  obtain ⟨hget, hid⟩ := buscar_eq_ok hs htk
  obtain rfl : tk = tk' := Option.some.inj (hget.symm.trans htk')
  obtain ⟨hsaldos, hallowance⟩ := mover_eq_ok hmove
  -- an absent owner reads as the empty string, which is no address
  obtain ⟨owner, howner⟩ : ∃ owner, campoTexto tx "owner" = some owner := by
    cases howner : campoTexto tx "owner" with
    | some owner => exact ⟨owner, rfl⟩
    | none =>
      rw [howner] at hvalido
      exact absurd rfl (recusar_eq_ok.mp hvalido)
  rw [howner, Option.getD_some] at hcabe hsaldos hallowance
  have hlida : s.allowance tk.id owner tx.de = tk.allowance owner tx.de :=
    congrFun (congrFun (allowance_of_get? hget) owner) tx.de
  refine ⟨tk.id, owner, para, x, hid, howner,
    (Option.filter_eq_some_iff.mp (exigir_eq_ok.mp hpara)).1, hx, ?_, ?_, ?_⟩
  · rw [hlida]
    exact Nat.le_of_not_lt (recusar_eq_ok.mp hcabe)
  · rw [hallowance, hlida]
    exact allowance_escreve htk' owner tx.de _
  · intro k addr
    refine (hsaldos k addr).trans (congrArg (· + _) ?_)
    refine (saldoEm_insert _ k addr).trans ?_
    split_ifs with hk
    · subst hk
      exact (saldoEm_of_get? hget addr).symm
    · rfl

end TokenTx

/-! ## What an accepted action does to the allowances -/

namespace TokenTx

/-- A transaction that approves a spender for an owner's tokens. -/
def Aprova (id owner spender : String) (tx : Tx) : Prop :=
  campoTexto tx "token" = some id ∧ tx.de = owner ∧ tx.para = some spender

/-- A transaction in which a spender moves an owner's tokens. -/
def Gasta (id owner spender : String) (tx : Tx) : Prop :=
  campoTexto tx "token" = some id ∧ campoTexto tx "owner" = some owner ∧ tx.de = spender

instance (id owner spender : String) (tx : Tx) : Decidable (Gasta id owner spender tx) :=
  inferInstanceAs (Decidable (_ ∧ _ ∧ _))

end TokenTx

/-- What an accepted action does to the allowances. -/
inductive MudaAllowance (s : State) (a : Acao) (t : State) : Prop
  | alheia (haprova : a.txDe .tokenApprove = none) (hgasta : a.txDe .tokenTransferFrom = none)
    (h : t.allowance = s.allowance)
  | aprova {tx : Tx} {id spender : String} {x : Amount} (htx : a.txDe .tokenApprove = some tx)
    (hid : TokenTx.campoTexto tx "token" = some id) (hspender : tx.para = some spender)
    (hx : TokenTx.valor tx = .ok x) (h : t.allowance = comAllowance s.allowance id tx.de spender x)
  | gasta {tx : Tx} {id owner para : String} {x : Amount}
    (htx : a.txDe .tokenTransferFrom = some tx) (hid : TokenTx.campoTexto tx "token" = some id)
    (howner : TokenTx.campoTexto tx "owner" = some owner) (hpara : tx.para = some para)
    (hx : TokenTx.valor tx = .ok x) (hcabe : x ≤ s.allowance id owner tx.de)
    (h : t.allowance = comAllowance s.allowance id owner tx.de (s.allowance id owner tx.de - x))
    (hmove : Movido id owner para x s t)

theorem Acao.txDe_outro {tipo outro : Tipo} (h : a.tipo? = some tipo) (hne : tipo ≠ outro) :
    a.txDe outro = none := by
  refine if_neg fun houtro => hne ?_
  exact Option.some.inj (h.symm.trans houtro)

/-- What every accepted action does to the allowances. -/
theorem Acao.Aceita.mudaAllowance (ha : a.Aceita amb s t) (hs : s.livro.EmDia) :
    MudaAllowance s a t := by
  by_cases hpegada : Campo.tokens ∈ a.pegada
  · obtain ⟨tx, height, blockTs, tipo, rfl, htipo, ⟨d⟩⟩ := ha.despacho rfl hpegada
    have hfim : t.allowance = d.meio.allowance := d.le
    have hmaneja := d.maneja
    by_cases haprova : tipo = .tokenApprove
    · subst haprova
      obtain ⟨id, spender, x, hid, hspender, hx, h⟩ := TokenTx.aprovar_eq_ok hs hmaneja
      exact .aprova (if_pos htipo) hid hspender hx (hfim.trans h)
    by_cases hgasta : tipo = .tokenTransferFrom
    · subst hgasta
      obtain ⟨id, owner, para, x, hid, howner, hpara, hx, hcabe, h, hmove⟩ :=
        TokenTx.transferirDe_eq_ok hs hmaneja
      refine .gasta (if_pos htipo) hid howner hpara hx hcabe (hfim.trans h) fun k addr => ?_
      have htokens : t.tokens = d.meio.tokens := d.le
      have hsaldo : t.saldoEm k addr = d.meio.saldoEm k addr := by
        unfold State.saldoEm
        rw [htokens]
      rw [hsaldo]
      exact hmove k addr
    refine .alheia (Acao.txDe_outro htipo haprova) (Acao.txDe_outro htipo hgasta) (hfim.trans ?_)
    by_cases hcria : tipo = .tokenCreate
    · subst hcria
      exact TokenTx.criar_allowance hmaneja
    · exact (manipulador_allowance (P := (· = s.allowance)) hcria haprova hgasta).ok rfl hmaneja
  · have hfora {tipo : Tipo} (htipo : Campo.tokens ∈ tipo.pegada) : a.txDe tipo = none :=
      if_neg fun h => hpegada (Acao.pegada_of_tipo h htipo)
    refine .alheia (hfora (by decide)) (hfora (by decide)) (ha.le fun c hc => ?_)
    have : Alheio c.dosTokens := ⟨by cases c <;> first | rfl | exact absurd hc hpegada⟩
    infer_instance

/-! ## What a spender moves between two approvals -/

/-- What an accepted action moves of an owner's tokens in a spender's name. -/
def movidoPor (id owner spender : String) (a : Acao) : Amount :=
  match a.txDe .tokenTransferFrom with
  | some tx =>
    if TokenTx.Gasta id owner spender tx then ((TokenTx.valor tx).toOption).getD 0 else 0
  | none => 0

/-- What a run moved of an owner's tokens in a spender's name. -/
def movido (id owner spender : String) (passado : List (State × Acao)) : Amount :=
  (passado.map fun x => movidoPor id owner spender x.2).sum

/-- No approval of a spender for an owner's tokens. -/
def SemAprovacao (id owner spender : String) (a : Acao) : Prop :=
  ∀ tx, a.txDe .tokenApprove = some tx → ¬ TokenTx.Aprova id owner spender tx

/-- What a transfer of the spender counts is what it moves. -/
def GastoFiel (amb : Ambiente) (id owner spender : String) (x : State × Acao) : Prop :=
  ∀ tx, x.2.txDe .tokenTransferFrom = some tx → TokenTx.Gasta id owner spender tx →
    ∃ para, tx.para = some para ∧ TokenTx.valor tx = .ok (movidoPor id owner spender x.2) ∧
      ∀ t, x.2.Aceita amb x.1 t → Movido id owner para (movidoPor id owner spender x.2) x.1 t

section

variable {owner spender : String} {passado : List (State × Acao)}

theorem movidoPor_of_gasta {tx : Tx} {x : Amount} (htx : a.txDe .tokenTransferFrom = some tx)
    (hgasta : TokenTx.Gasta id owner spender tx) (hx : TokenTx.valor tx = .ok x) :
    movidoPor id owner spender a = x := by
  unfold movidoPor
  rw [htx]
  dsimp only
  rw [if_pos hgasta, hx]
  rfl

theorem movidoPor_alheio
    (h : ∀ tx, a.txDe .tokenTransferFrom = some tx → ¬ TokenTx.Gasta id owner spender tx) :
    movidoPor id owner spender a = 0 := by
  unfold movidoPor
  cases htx : a.txDe .tokenTransferFrom with
  | none => rfl
  | some tx => exact if_neg (h tx htx)

/-- Between approvals, an accepted action takes from the allowance what it moves. -/
theorem MudaAllowance.movido (h : MudaAllowance s a t) (hsem : SemAprovacao id owner spender a) :
    t.allowance id owner spender + movidoPor id owner spender a =
      s.allowance id owner spender := by
  cases h with
  | alheia haprova hgasta h =>
    rw [movidoPor_alheio fun tx htx => absurd (hgasta.symm.trans htx) nofun, h]
    rfl
  | @aprova tx outro sp x htx hid hspender hx h =>
    have hnada : movidoPor id owner spender a = 0 := movidoPor_alheio fun tx' htx' => by
      have h := (Acao.tipo?_of_txDe htx).symm.trans (Acao.tipo?_of_txDe htx')
      cases h
    rw [hnada, h]
    refine if_neg ?_
    rintro ⟨rfl, rfl, rfl⟩
    exact hsem tx htx ⟨hid, rfl, hspender⟩
  | @gasta tx outro o para x htx hid howner hpara hx hcabe h hmove =>
    by_cases hmesmo : TokenTx.Gasta id owner spender tx
    · rw [movidoPor_of_gasta htx hmesmo hx, h]
      obtain ⟨hid', howner', rfl⟩ := hmesmo
      obtain rfl := Option.some.inj (hid.symm.trans hid')
      obtain rfl := Option.some.inj (howner.symm.trans howner')
      unfold comAllowance
      rw [if_pos ⟨rfl, rfl, rfl⟩]
      exact Nat.sub_add_cancel hcabe
    · rw [movidoPor_alheio, h]
      · refine if_neg ?_
        rintro ⟨rfl, rfl, rfl⟩
        exact hmesmo ⟨hid, howner, rfl⟩
      · intro tx' htx'
        obtain rfl := Option.some.inj (htx.symm.trans htx')
        exact hmesmo

/-- An accepted transfer of the spender moves what it counts, whatever state it leads to. -/
theorem gastoFiel_of_aceita (ha : a.Aceita amb s t) (hs : s.livro.EmDia) :
    GastoFiel amb id owner spender (s, a) := by
  rintro tx htx hgasta
  have hgasto (u : State) (hu : a.Aceita amb s u) : ∃ para, tx.para = some para ∧
      TokenTx.valor tx = .ok (movidoPor id owner spender a) ∧
      Movido id owner para (movidoPor id owner spender a) s u := by
    cases hu.mudaAllowance hs with
    | alheia _ hnada => exact absurd (hnada.symm.trans htx) nofun
    | aprova haprova =>
      have h := (Acao.tipo?_of_txDe haprova).symm.trans (Acao.tipo?_of_txDe htx)
      cases h
    | @gasta tx' outro o para x htx' hid howner hpara hx hcabe h hmove =>
      obtain rfl := Option.some.inj (htx'.symm.trans htx)
      rw [movidoPor_of_gasta htx hgasta hx]
      obtain rfl := Option.some.inj (hid.symm.trans hgasta.1)
      obtain rfl := Option.some.inj (howner.symm.trans hgasta.2.1)
      exact ⟨para, hpara, hx, hmove⟩
  obtain ⟨para, hpara, hx, -⟩ := hgasto t ha
  refine ⟨para, hpara, hx, fun u hu => ?_⟩
  obtain ⟨para', hpara', -, hmove⟩ := hgasto u hu
  obtain rfl := Option.some.inj (hpara.symm.trans hpara')
  exact hmove

/-- Over a run with no approval, what was moved came out of the allowance. -/
theorem allowance_execucao (hs₀ : s₀.livro.EmDia) (h : Execucao amb s₀ passado s)
    (hsem : ∀ x ∈ passado, SemAprovacao id owner spender x.2) :
    s.allowance id owner spender + movido id owner spender passado =
      s₀.allowance id owner spender ∧
    ∀ x ∈ passado, GastoFiel amb id owner spender x := by
  induction h with
  | inicio => exact ⟨rfl, fun _ hx => absurd hx List.not_mem_nil⟩
  | @segue passado s t a h ha ih =>
    obtain ⟨hconta, hfiel⟩ := ih fun x hx => hsem x (List.mem_cons_of_mem _ hx)
    have hs : s.livro.EmDia := h.invariante hs₀ fun hs ha => (ha.mudaLivro hs).emDia hs
    refine ⟨?_, fun x hx => ?_⟩
    · have hpasso := (ha.mudaAllowance hs).movido (hsem _ List.mem_cons_self)
      have hsoma : movido id owner spender ((s, a) :: passado) =
          movidoPor id owner spender a + movido id owner spender passado := List.sum_cons
      rw [hsoma, ← Nat.add_assoc]
      exact (congrArg (· + _) hpasso).trans hconta
    · rcases List.mem_cons.mp hx with rfl | hx
      · exact gastoFiel_of_aceita ha hs
      · exact hfiel x hx

/-- Between two approvals of a spender for an owner's tokens, the spender moves at most the
amount of the earlier one, and what is left of the allowance is that amount less what was
moved. Each transfer moves what it counts, also when owner, spender and destination
coincide. -/
theorem allowance_contada {depois antes : List (State × Acao)} {x : State × Acao} {tx : Tx}
    (hg : Genese amb s₀) (h : Execucao amb s₀ (depois ++ x :: antes) s)
    (htx : x.2.txDe .tokenApprove = some tx) (haprova : TokenTx.Aprova id owner spender tx)
    (hsem : ∀ y ∈ depois, SemAprovacao id owner spender y.2) :
    ∃ aprovado, TokenTx.valor tx = .ok aprovado ∧
      movido id owner spender depois ≤ aprovado ∧
      s.allowance id owner spender = aprovado - movido id owner spender depois ∧
      ∀ y ∈ depois, GastoFiel amb id owner spender y := by
  obtain ⟨hantes, t, ha, hdepois⟩ := h.corta
  have hs : x.1.livro.EmDia := livro_execucao hg hantes
  cases ha.mudaAllowance hs with
  | alheia hnada => exact absurd (hnada.symm.trans htx) nofun
  | gasta hgasta =>
    have h := (Acao.tipo?_of_txDe htx).symm.trans (Acao.tipo?_of_txDe hgasta)
    cases h
  | @aprova tx' id' sp aprovado htx' hid hspender hx hescreve =>
    obtain rfl := Option.some.inj (htx.symm.trans htx')
    obtain ⟨hid', rfl, hspender'⟩ := haprova
    obtain rfl := Option.some.inj (hid.symm.trans hid')
    obtain rfl := Option.some.inj (hspender.symm.trans hspender')
    have hescrita : t.allowance id' tx.de sp = aprovado := by
      rw [hescreve]
      exact if_pos ⟨rfl, rfl, rfl⟩
    obtain ⟨hconta, hfiel⟩ := allowance_execucao ((ha.mudaLivro hs).emDia hs) hdepois hsem
    rw [hescrita] at hconta
    exact ⟨aprovado, hx, (Nat.le_add_left _ _).trans hconta.le,
      (Nat.sub_eq_of_eq_add hconta.symm).symm, hfiel⟩

end

/-! ## An allowance that is spent -/

/-- Five of the nine units of the token, for the second account to move. -/
def camposAutoriza : Tx :=
  { txType := "TOKEN_APPROVE", de := "", para := some enderecoB, nonce := 2, timestamp := 1,
    amount := "5", fee := "0", data := some (.map [("token", .str idDaMoeda)]) }

/-- A transfer of the first account's units by the second account. -/
def camposGasto (nonce : ℕ) (para amount : String) : Tx :=
  { txType := "TOKEN_TRANSFER_FROM", de := "", para := some para, nonce := nonce, timestamp := 1,
    amount := amount, fee := "0"
    data := some (.map [("owner", .str enderecoA), ("token", .str idDaMoeda)]) }

/-- The token, the approval, three units to the spender and one back to the owner itself. -/
def roteiroAllowance : List Ato :=
  [linha 0 enderecoA camposMoeda .tokenCreate 1 1 4010,
    linha 0 enderecoA camposAutoriza .tokenApprove 1 2 5034,
    linha 1 enderecoB (camposGasto 1 enderecoB "3") .tokenTransferFrom 1 1 1024,
    linha 1 enderecoB (camposGasto 2 enderecoA "1") .tokenTransferFrom 1 2 2048]

theorem execucao_allowance : Execucao ambienteIdeal estadoIa
    (passadoDe ambienteIdeal estadoIa [] roteiroAllowance)
    (encena ambienteIdeal estadoIa roteiroAllowance) := by
  refine execucao_ia (by simp [roteiroAllowance, linha, contasIa]) ?_
  rw [ambienteIdeal_eq]
  decide +kernel

/-- The spender moved four of the five units, and one is left to move. -/
theorem quatro_de_cinco : ∃ depois antes x s,
    Execucao ambienteIdeal estadoIa (depois ++ x :: antes) s ∧
      movido idDaMoeda enderecoA enderecoB depois = 4 ∧
      s.allowance idDaMoeda enderecoA enderecoB = 1 := by
  obtain ⟨z, y, x, w, hpassado⟩ : ∃ z y x w,
      passadoDe ambienteIdeal estadoIa [] roteiroAllowance = [z, y] ++ x :: [w] ∧
      x.2 = (linha 0 enderecoA camposAutoriza .tokenApprove 1 2 5034).acao ambienteIdeal ∧
      y.2 = (linha 1 enderecoB (camposGasto 1 enderecoB "3") .tokenTransferFrom 1 1 1024).acao
        ambienteIdeal ∧
      z.2 = (linha 1 enderecoB (camposGasto 2 enderecoA "1") .tokenTransferFrom 1 2 2048).acao
        ambienteIdeal := ⟨_, _, _, _, rfl, rfl, rfl, rfl⟩
  obtain ⟨hpassado, hx, hy, hz⟩ := hpassado
  have hexec := execucao_allowance
  rw [hpassado] at hexec
  have hmovido : movido idDaMoeda enderecoA enderecoB [z, y] = 4 := by
    unfold movido
    simp only [List.map_cons, List.map_nil, hy, hz]
    decide +kernel
  have hsem : ∀ v ∈ [z, y], SemAprovacao idDaMoeda enderecoA enderecoB v.2 := by
    intro v hv tx htx
    have htipo := Acao.tipo?_of_txDe htx
    rcases List.mem_pair.mp hv with rfl | rfl
    · rw [hz] at htipo
      cases htipo
    · rw [hy] at htipo
      cases htipo
  have haprova : TokenTx.Aprova idDaMoeda enderecoA enderecoB
      ((linha 0 enderecoA camposAutoriza .tokenApprove 1 2 5034).assinada ambienteIdeal) :=
    ⟨rfl, rfl, rfl⟩
  obtain ⟨aprovado, hvalor, -, hresto, -⟩ := allowance_contada genese_ia hexec
    (by rw [hx]; rfl) haprova hsem
  rw [hmovido] at hresto
  refine ⟨[z, y], [w], x, _, hexec, hmovido, hresto.trans ?_⟩
  obtain rfl := Except.ok.inj hvalor
  decide +kernel

end Eav7
