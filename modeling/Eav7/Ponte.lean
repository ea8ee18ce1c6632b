import Eav7.Base.Janela
import Eav7.TxIdeal

/-!
# The bridge over a run

What each accepted action does to the bridge, and from it what every run keeps: the
locked amounts are the balance of what came in and what went out, a source event
releases once, and the releases of a window stay within the velocity limit.
-/

namespace Eav7

open Base
open BridgeTx (Deposito lerDeposito conferirDeposito corteDaJanela paramBps)

variable {amb : Ambiente} {s t : State}

instance : Cego State.bridge .accounts := ⟨fun _ => rfl⟩
instance : Cego State.bridge .tokens := ⟨fun _ => rfl⟩
instance : Cego State.bridge .totalBurned := ⟨fun _ => rfl⟩
instance : Cego State.bridge .bridgeRelayers := ⟨fun _ => rfl⟩
instance : Cego State.bridge .bridgeSourceCommittees := ⟨fun _ => rfl⟩
instance : Cego State.bridge .vesting := ⟨fun _ => rfl⟩

theorem cego_bridge {c : Campo} (h : c ≠ .bridge) : Cego State.bridge c := by
  cases c <;> first | exact ⟨fun _ => rfl⟩ | exact absurd rfl h

/-! ## Locked amounts -/

namespace Bridge

variable (b : Bridge)

/-- The locked amount of an asset: a token, or none for the native one. -/
def travado : Option String → Amount
  | some t => b.lockedTokens.getD t 0
  | none => b.lockedNative

/-- The bridge with another locked amount of an asset. -/
def comTravado (ativo : Option String) (v : Amount) : Bridge :=
  match ativo with
  | some t => { b with lockedTokens := b.lockedTokens.insert t v }
  | none => { b with lockedNative := v }

theorem travado_comTravado (token ativo : Option String) (v : Amount) :
    (b.comTravado token v).travado ativo = if ativo = token then v else b.travado ativo := by
  cases ativo <;> cases token <;> simp [comTravado, travado, OrdMap.getD_insert]

/-- The locked amounts lie in two fields. -/
theorem travado_of_comTravado (b : Bridge) {b' : Bridge} (token : Option String) {v : Amount}
    (htokens : b'.lockedTokens = (b.comTravado token v).lockedTokens)
    (hnativo : b'.lockedNative = (b.comTravado token v).lockedNative) {ativo : Option String} :
    b'.travado ativo = if ativo = token then v else b.travado ativo := by
  rw [← travado_comTravado]
  cases ativo with
  | some t => exact congrArg (fun m : OrdMap String Amount => m.getD t 0) htokens
  | none => exact hnativo

@[simp] theorem processedInbound_comTravado (ativo : Option String) (v : Amount) :
    (b.comTravado ativo v).processedInbound = b.processedInbound := by
  cases ativo <;> rfl

@[simp] theorem releaseLog_comTravado (ativo : Option String) (v : Amount) :
    (b.comTravado ativo v).releaseLog = b.releaseLog := by
  cases ativo <;> rfl

end Bridge

/-! ## What the handlers do to the bridge -/

namespace BridgeTx

/-- The asset and the amount that an outgoing transfer names. -/
def lerSaida (tx : Tx) : R (Option String × Amount) := do
  let d ← GovTx.dados tx
  let amount ← valorPositivo tx
  let token ← token d
  return (token, amount)

theorem travarToken_eq_ok {token de : String} {amount : Amount} {u : Unit}
    (h : travarToken token de amount s = .ok u t) :
    t.bridge = s.bridge.comTravado (some token) (s.bridge.travado (some token) + amount) := by
  unfold travarToken at h
  rw [get_bind_run] at h
  obtain ⟨tk, v, htk, h₁⟩ := bind_eq_ok.mp h
  obtain ⟨-, rfl⟩ := lift_eq_ok.mp htk
  obtain ⟨novo, w, hnovo, h₂⟩ := bind_eq_ok.mp h₁
  obtain ⟨-, rfl⟩ := lift_eq_ok.mp hnovo
  rw [set_bind_run, get_bind_run] at h₂
  obtain ⟨travado, x, hsoma, h₃⟩ := bind_eq_ok.mp h₂
  obtain ⟨hsoma', rfl⟩ := lift_eq_ok.mp hsoma
  obtain ⟨rfl, -⟩ := soma_eq_ok.mp hsoma'
  exact congrArg State.bridge (EStateM.Result.ok.inj h₃).2.symm

theorem travarNativo_eq_ok {amount : Amount} {u : Unit} (h : travarNativo amount s = .ok u t) :
    t.bridge = s.bridge.comTravado none (s.bridge.travado none + amount) := by
  unfold travarNativo at h
  rw [get_bind_run] at h
  obtain ⟨travado, x, hsoma, h₁⟩ := bind_eq_ok.mp h
  obtain ⟨hsoma', rfl⟩ := lift_eq_ok.mp hsoma
  obtain ⟨rfl, -⟩ := soma_eq_ok.mp hsoma'
  exact congrArg State.bridge (EStateM.Result.ok.inj h₁).2.symm

/-- An outgoing transfer locks what it names. -/
theorem bridgeOut_eq_ok {cr : Cripto} {tx : Tx} {ctx : Ctx} {u : Unit}
    (h : bridgeOut cr tx ctx s = .ok u t) :
    ∃ ativo amount, lerSaida tx = .ok (ativo, amount) ∧
      t.bridge = { s.bridge.comTravado ativo (s.bridge.travado ativo + amount) with
        transfers := t.bridge.transfers } := by
  unfold bridgeOut at h
  rw [get_bind_run] at h
  obtain ⟨d, v, hd, h₁⟩ := bind_eq_ok.mp h
  obtain ⟨hd', rfl⟩ := lift_eq_ok.mp hd
  obtain ⟨id, v, hid, h₂⟩ := bind_eq_ok.mp h₁
  obtain ⟨-, rfl⟩ := lift_eq_ok.mp hid
  obtain ⟨cadeia, v, hcadeia, h₃⟩ := bind_eq_ok.mp h₂
  obtain ⟨-, rfl⟩ := lift_eq_ok.mp hcadeia
  obtain ⟨endereco, v, hendereco, h₄⟩ := bind_eq_ok.mp h₃
  obtain ⟨-, rfl⟩ := lift_eq_ok.mp hendereco
  obtain ⟨amount, v, hamount, h₅⟩ := bind_eq_ok.mp h₄
  obtain ⟨hamount', rfl⟩ := lift_eq_ok.mp hamount
  obtain ⟨ativo, v, hativo, h₆⟩ := bind_eq_ok.mp h₅
  obtain ⟨hativo', rfl⟩ := lift_eq_ok.mp hativo
  obtain ⟨_, v, hconf, h₇⟩ := bind_eq_ok.mp h₆
  obtain ⟨-, rfl⟩ := lift_eq_ok.mp hconf
  have hler : lerSaida tx = .ok (ativo, amount) :=
    except_bind_eq_ok.mpr ⟨d, hd', except_bind_eq_ok.mpr
      ⟨amount, hamount', except_bind_eq_ok.mpr ⟨ativo, hativo', rfl⟩⟩⟩
  cases ativo with
  | some token =>
    obtain ⟨_, v, hdeb, h₈⟩ := bind_eq_ok.mp h₇
    obtain ⟨_, w, htrava, h₉⟩ := bind_eq_ok.mp h₈
    have hv : v.bridge = _ := Mantem.le (debitar_mantem _ _) hdeb
    obtain ⟨-, rfl⟩ := EStateM.Result.ok.inj h₉
    refine ⟨some token, amount, hler, ?_⟩
    rw [← hv, ← travarToken_eq_ok htrava]
    rfl
  | none =>
    obtain ⟨_, v, hdeb, h₈⟩ := bind_eq_ok.mp h₇
    obtain ⟨_, w, htrava, h₉⟩ := bind_eq_ok.mp h₈
    have hv : v.bridge = _ := Mantem.le (debitar_mantem _ _) hdeb
    obtain ⟨-, rfl⟩ := EStateM.Result.ok.inj h₉
    refine ⟨none, amount, hler, ?_⟩
    rw [← hv, ← travarNativo_eq_ok htrava]
    rfl

theorem liberar_eq_ok {ativo : Option String} {para : String} {amount : Amount} {u : Unit}
    (h : liberar ativo para amount s = .ok u t) :
    amount ≤ s.bridge.travado ativo ∧
      t.bridge = s.bridge.comTravado ativo (s.bridge.travado ativo - amount) := by
  cases ativo with
  | some token =>
    change liberarToken token para amount s = _ at h
    unfold liberarToken at h
    rw [get_bind_run] at h
    obtain ⟨travado, v, hsub, h₁⟩ := bind_eq_ok.mp h
    obtain ⟨hsub', rfl⟩ := lift_eq_ok.mp hsub
    obtain ⟨rfl, hle⟩ := sub_eq_ok.mp hsub'
    rw [modify_bind_run] at h₁
    obtain ⟨tk, w, htk, h₂⟩ := bind_eq_ok.mp h₁
    obtain ⟨-, rfl⟩ := lift_eq_ok.mp htk
    obtain ⟨novo, x, hnovo, h₃⟩ := bind_eq_ok.mp h₂
    obtain ⟨-, rfl⟩ := lift_eq_ok.mp hnovo
    exact ⟨hle, congrArg State.bridge (EStateM.Result.ok.inj h₃).2.symm⟩
  | none =>
    change liberarNativo para amount s = _ at h
    unfold liberarNativo at h
    rw [get_bind_run] at h
    obtain ⟨travado, v, hsub, h₁⟩ := bind_eq_ok.mp h
    obtain ⟨hsub', rfl⟩ := lift_eq_ok.mp hsub
    obtain ⟨rfl, hle⟩ := sub_eq_ok.mp hsub'
    rw [modify_bind_run] at h₁
    exact ⟨hle, (Mantem.le (creditar_mantem _ _) h₁ : t.bridge = _)⟩

/-- The height of a release, where the window cuts. -/
def alturaDe (r : Release) : ℤ := r.height

/-- A released deposit leaves the lock, the log and the replay guard so. -/
theorem bridgeIn_eq_ok {cr : Cripto} {tx : Tx} {ctx : Ctx} {u : Unit}
    (h : bridgeIn cr tx ctx s = .ok u t) :
    ∃ dep, conferirDeposito cr s tx ctx = .ok dep ∧ dep.amount ≤ s.bridge.travado dep.token ∧
      t.bridge = { s.bridge.comTravado dep.token (s.bridge.travado dep.token - dep.amount) with
        releaseLog := acima alturaDe (corteDaJanela ctx.height)
          (s.bridge.releaseLog ++ [⟨ctx.height, dep.ativo, dep.amount⟩])
        processedInbound := s.bridge.processedInbound.insert (dep.replayKey cr) dep.id
        attestations := t.bridge.attestations
        transfers := t.bridge.transfers } := by
  unfold bridgeIn at h
  rw [get_bind_run] at h
  obtain ⟨dep, v, hdep, h₁⟩ := bind_eq_ok.mp h
  obtain ⟨hdep', rfl⟩ := lift_eq_ok.mp hdep
  rw [modify_bind_run] at h₁
  obtain ⟨_, w, hlibera, h₂⟩ := bind_eq_ok.mp h₁
  obtain ⟨hle, hw⟩ := liberar_eq_ok hlibera
  obtain ⟨-, rfl⟩ := EStateM.Result.ok.inj h₂
  have htravado : (atestar cr tx dep v).bridge.travado dep.token = v.bridge.travado dep.token := by
    cases dep.token <;> rfl
  rw [htravado] at hle hw
  refine ⟨dep, hdep', hle, ?_⟩
  unfold registrarLiberacao
  rw [hw]
  cases dep.token <;> rfl

theorem bridgeSettle_eq_ok {tx : Tx} {ctx : Ctx} {u : Unit} (h : bridgeSettle tx ctx s = .ok u t) :
    t.bridge = { s.bridge with transfers := t.bridge.transfers } := by
  unfold bridgeSettle at h
  rw [get_bind_run] at h
  obtain ⟨_, v, hrelayer, h₁⟩ := bind_eq_ok.mp h
  obtain ⟨-, rfl⟩ := lift_eq_ok.mp hrelayer
  obtain ⟨d, v, hd, h₂⟩ := bind_eq_ok.mp h₁
  obtain ⟨-, rfl⟩ := lift_eq_ok.mp hd
  obtain ⟨id, v, hid, h₃⟩ := bind_eq_ok.mp h₂
  obtain ⟨-, rfl⟩ := lift_eq_ok.mp hid
  obtain ⟨saida, v, hsaida, h₄⟩ := bind_eq_ok.mp h₃
  obtain ⟨-, rfl⟩ := lift_eq_ok.mp hsaida
  obtain ⟨-, rfl⟩ := EStateM.Result.ok.inj h₄
  rfl

end BridgeTx

/-! ## What an action does to the bridge -/

/-- The asset and the amount that an action locks. -/
def Acao.saida? (a : Acao) : Option (Option String × Amount) :=
  if a.tipo? = some .bridgeOut then a.tx?.bind fun tx => (BridgeTx.lerSaida tx).toOption else none

/-- The deposit that an action releases, read on the state that it finds. -/
def Acao.deposito? (s : State) (a : Acao) : Option Deposito :=
  if a.tipo? = some .bridgeIn then a.tx?.bind fun tx => (lerDeposito s tx).toOption else none

/-- Everything that an accepted action can do to the bridge. -/
inductive MudaPonte (amb : Ambiente) (s : State) (a : Acao) : Bridge → Prop where
  | alheia (hsaida : a.saida? = none) (hdep : a.deposito? s = none) : MudaPonte amb s a s.bridge
  | liquida {transfers : OrdMap String Transfer} (hsaida : a.saida? = none)
      (hdep : a.deposito? s = none) : MudaPonte amb s a { s.bridge with transfers := transfers }
  | trava {ativo : Option String} {amount : Amount} {transfers : OrdMap String Transfer}
      (hsaida : a.saida? = some (ativo, amount)) (hdep : a.deposito? s = none) :
      MudaPonte amb s a { s.bridge.comTravado ativo (s.bridge.travado ativo + amount) with
        transfers := transfers }
  | solta {tx : Tx} {ctx : Ctx} {dep : Deposito} {transfers : OrdMap String Transfer}
      {attestations : OrdMap String Attestation} (htx : a.tx? = some tx)
      (hheight : ctx.height = a.height) (hsaida : a.saida? = none)
      (hdep : a.deposito? s = some dep)
      (hconf : conferirDeposito amb.cripto s tx ctx = .ok dep)
      (hle : dep.amount ≤ s.bridge.travado dep.token) :
      MudaPonte amb s a
        { s.bridge.comTravado dep.token (s.bridge.travado dep.token - dep.amount) with
          releaseLog := acima BridgeTx.alturaDe (corteDaJanela a.height)
            (s.bridge.releaseLog ++ [⟨a.height, dep.ativo, dep.amount⟩])
          processedInbound := s.bridge.processedInbound.insert (dep.replayKey amb.cripto) dep.id
          attestations := attestations
          transfers := transfers }

theorem lerDeposito_of_conferir {cr : Cripto} {tx : Tx} {ctx : Ctx} {dep : Deposito}
    (h : conferirDeposito cr s tx ctx = .ok dep) : lerDeposito s tx = .ok dep := by
  obtain ⟨dep', hler, h₁⟩ := except_bind_eq_ok.mp h
  obtain ⟨_, -, h₂⟩ := except_bind_eq_ok.mp h₁
  obtain ⟨_, -, h₃⟩ := except_bind_eq_ok.mp h₂
  obtain ⟨_, -, h₄⟩ := except_bind_eq_ok.mp h₃
  obtain ⟨_, -, h₅⟩ := except_bind_eq_ok.mp h₄
  cases h₅
  exact hler

/-- Whatever an accepted action does to the bridge is one of the moves. -/
theorem Acao.Aceita.mudaPonte {a : Acao} (ha : a.Aceita amb s t) : MudaPonte amb s a t.bridge := by
  have hsaida : a.tipo? ≠ some .bridgeOut → a.saida? = none := fun h => if_neg h
  have hdep : a.tipo? ≠ some .bridgeIn → a.deposito? s = none := fun h => if_neg h
  by_cases hponte : .bridge ∈ a.pegada
  · obtain ⟨tx, height, blockTs, tipo, rfl, htipo, ⟨d⟩⟩ := ha.despacho rfl hponte
    rw [htipo] at hsaida hdep
    have hfim : t.bridge = d.meio.bridge := d.le
    have hmaneja := d.maneja
    rw [hfim]
    by_cases hin : tipo = .bridgeIn
    · subst hin
      obtain ⟨dep, hconf, hle, hmeio⟩ := BridgeTx.bridgeIn_eq_ok hmaneja
      rw [hmeio]
      refine .solta rfl rfl (hsaida (by decide)) ?_ hconf hle
      simp [Acao.deposito?, htipo, Acao.tx?, lerDeposito_of_conferir hconf, Except.toOption]
    by_cases hout : tipo = .bridgeOut
    · subst hout
      obtain ⟨ativo, amount, hler, hmeio⟩ := BridgeTx.bridgeOut_eq_ok hmaneja
      rw [hmeio]
      refine .trava ?_ (hdep (by decide))
      simp [Acao.saida?, htipo, Acao.tx?, hler, Except.toOption]
    have hnada := And.intro (hsaida (by simpa using hout)) (hdep (by simpa using hin))
    by_cases hsettle : tipo = .bridgeSettle
    · subst hsettle
      rw [@BridgeTx.bridgeSettle_eq_ok _ _ _ ⟨height, blockTs, d.fee⟩ _ hmaneja]
      exact .liquida hnada.1 hnada.2
    · have hfora : .bridge ∉ tipo.pegada := by
        cases tipo <;> first | decide | contradiction
      rw [manipulador_le hmaneja fun c hc => cego_bridge fun h => hfora (h ▸ hc)]
      exact .alheia hnada.1 hnada.2
  · have hfora : ∀ tipo, .bridge ∈ tipo.pegada → a.tipo? ≠ some tipo :=
      fun tipo hmem h => hponte (Acao.pegada_of_tipo h hmem)
    rw [ha.le fun c hc => cego_bridge fun h => hponte (h ▸ hc)]
    exact .alheia (hsaida (hfora _ (by decide))) (hdep (hfora _ (by decide)))

/-! ## Conservation -/

section Conservacao

variable {s₀ : State} {passado : List (State × Acao)} {x : State × Acao}

/-- What a run locked of an asset. -/
def travadoPor (ativo : Option String) (passado : List (State × Acao)) : ℕ :=
  (((passado.filterMap (·.2.saida?)).filter (·.1 = ativo)).map (·.2)).sum

/-- The deposits that a run released, the newest first. -/
def depositosDe (passado : List (State × Acao)) : List Deposito :=
  passado.filterMap fun x => x.2.deposito? x.1

/-- What a run released of an asset. -/
def liberadoPor (ativo : Option String) (passado : List (State × Acao)) : ℕ :=
  (((depositosDe passado).filter (·.token = ativo)).map (·.amount)).sum

theorem travadoPor_cons_none (h : x.2.saida? = none) (ativo : Option String) :
    travadoPor ativo (x :: passado) = travadoPor ativo passado := by
  unfold travadoPor
  rw [List.filterMap_cons_none (f := fun x : State × Acao => x.2.saida?) h]

theorem travadoPor_cons_some {token : Option String} {amount : Amount}
    (h : x.2.saida? = some (token, amount)) (ativo : Option String) :
    travadoPor ativo (x :: passado) =
      (if ativo = token then amount else 0) + travadoPor ativo passado := by
  unfold travadoPor
  rw [List.filterMap_cons_some (f := fun x : State × Acao => x.2.saida?) h, List.filter_cons]
  by_cases htoken : token = ativo
  · simp [htoken]
  · simp [htoken, Ne.symm htoken]

theorem depositosDe_cons_none (h : x.2.deposito? x.1 = none) :
    depositosDe (x :: passado) = depositosDe passado :=
  List.filterMap_cons_none (f := fun x : State × Acao => x.2.deposito? x.1) h

theorem depositosDe_cons_some {dep : Deposito} (h : x.2.deposito? x.1 = some dep) :
    depositosDe (x :: passado) = dep :: depositosDe passado :=
  List.filterMap_cons_some (f := fun x : State × Acao => x.2.deposito? x.1) h

theorem liberadoPor_cons_none (h : x.2.deposito? x.1 = none) (ativo : Option String) :
    liberadoPor ativo (x :: passado) = liberadoPor ativo passado := by
  unfold liberadoPor
  rw [depositosDe_cons_none h]

theorem liberadoPor_cons_some {dep : Deposito} (h : x.2.deposito? x.1 = some dep)
    (ativo : Option String) :
    liberadoPor ativo (x :: passado) =
      (if ativo = dep.token then dep.amount else 0) + liberadoPor ativo passado := by
  unfold liberadoPor
  rw [depositosDe_cons_some h, List.filter_cons]
  by_cases htoken : dep.token = ativo
  · simp [htoken]
  · simp [htoken, Ne.symm htoken]

/-- What is locked and what was released make what came in. -/
theorem travado_add_liberado (h : Execucao amb s₀ passado s) (h₀ : s₀.bridge = {})
    (ativo : Option String) :
    s.bridge.travado ativo + liberadoPor ativo passado = travadoPor ativo passado := by
  induction h with
  | inicio =>
    rw [h₀]
    cases ativo <;> rfl
  | segue h ha ih =>
    rename_i passado s t a
    generalize hb : t.bridge = b
    have hmuda := hb ▸ ha.mudaPonte
    cases hmuda with
    | alheia hsaida hdep =>
      rw [liberadoPor_cons_none hdep, travadoPor_cons_none hsaida]
      exact ih
    | liquida hsaida hdep =>
      rw [liberadoPor_cons_none hdep, travadoPor_cons_none hsaida]
      cases ativo <;> exact ih
    | trava hsaida hdep =>
      rename_i token amount transfers
      rw [liberadoPor_cons_none hdep, travadoPor_cons_some hsaida, ← ih]
      rw [Bridge.travado_of_comTravado s.bridge token]
      · split_ifs with heq
        · rw [heq]
          exact (Nat.add_right_comm _ _ _).trans (Nat.add_comm _ _)
        · exact (Nat.zero_add _).symm
      · rfl
      · rfl
    | solta htx hheight hsaida hdep hconf hle =>
      rename_i tx ctx dep transfers attestations
      rw [liberadoPor_cons_some hdep, travadoPor_cons_none hsaida, ← ih]
      rw [Bridge.travado_of_comTravado s.bridge dep.token]
      · split_ifs with heq
        · rw [heq, ← Nat.add_assoc, Nat.sub_add_cancel hle]
        · rw [Nat.zero_add]
      · rfl
      · rfl

end Conservacao

/-! ## Replay protection -/

section Repeticao

variable {s₀ : State} {passado : List (State × Acao)}

theorem processedInbound_of_muda {a : Acao} {b : Bridge} (h : MudaPonte amb s a b)
    {chave : String} (hchave : s.bridge.processedInbound.contains chave = true) :
    b.processedInbound.contains chave = true := by
  cases h with
  | alheia => exact hchave
  | liquida => exact hchave
  | trava => simpa using hchave
  | solta =>
    obtain ⟨v, hv⟩ := OrdMap.contains_iff.mp hchave
    rw [OrdMap.contains_iff]
    simp only [OrdMap.get?_insert]
    split_ifs
    · exact ⟨_, rfl⟩
    · exact ⟨v, hv⟩

/-- A deposit is released only while its key is free. -/
theorem livre_of_conferir {cr : Cripto} {tx : Tx} {ctx : Ctx} {dep : Deposito}
    (h : conferirDeposito cr s tx ctx = .ok dep) :
    s.bridge.processedInbound.contains (dep.replayKey cr) = false := by
  obtain ⟨dep', hler, h₁⟩ := except_bind_eq_ok.mp h
  obtain ⟨_, hlivre, h₂⟩ := except_bind_eq_ok.mp h₁
  obtain ⟨_, -, h₃⟩ := except_bind_eq_ok.mp h₂
  obtain ⟨_, -, h₄⟩ := except_bind_eq_ok.mp h₃
  obtain ⟨_, -, h₅⟩ := except_bind_eq_ok.mp h₄
  cases h₅
  exact Bool.eq_false_iff.mpr (recusar_eq_ok.mp hlivre)

/-- The released deposits hold their keys, and no two of them share one. -/
theorem chaves_dos_depositos (h : Execucao amb s₀ passado s) :
    ((depositosDe passado).map (·.replayKey amb.cripto)).Nodup ∧
      ∀ dep ∈ depositosDe passado,
        s.bridge.processedInbound.contains (dep.replayKey amb.cripto) = true := by
  induction h with
  | inicio => exact ⟨.nil, by simp [depositosDe]⟩
  | segue h ha ih =>
    rename_i passado s t a
    obtain ⟨hnodup, hchaves⟩ := ih
    have hmuda := ha.mudaPonte
    have hantes := fun dep hdep => processedInbound_of_muda hmuda (hchaves dep hdep)
    cases hdep : a.deposito? s with
    | none =>
      rw [depositosDe_cons_none hdep]
      exact ⟨hnodup, hantes⟩
    | some dep =>
      rw [depositosDe_cons_some hdep]
      generalize hb : t.bridge = b at hmuda hantes
      cases hmuda with
      | alheia _ hnone => cases hnone.symm.trans hdep
      | liquida _ hnone => cases hnone.symm.trans hdep
      | trava _ hnone => cases hnone.symm.trans hdep
      | solta htx hheight hsaida hdep' hconf hle =>
        obtain rfl := Option.some.inj (hdep'.symm.trans hdep)
        have hlivre := livre_of_conferir hconf
        refine ⟨List.nodup_cons.mpr ⟨fun hmem => ?_, hnodup⟩, ?_⟩
        · obtain ⟨outro, houtro, heq⟩ := List.mem_map.mp hmem
          have hpresa := hchaves outro houtro
          rw [heq, hlivre] at hpresa
          cases hpresa
        · rw [List.forall_mem_cons]
          refine ⟨OrdMap.contains_iff.mpr ⟨_, OrdMap.get?_insert_self ..⟩, hantes⟩

end Repeticao

/-- The deposit is of a source event. Chains are the same up to case. -/
def deEvento (cr : Cripto) (sourceChain sourceTxHash : String) (dep : Deposito) : Bool :=
  cr.toUppercase dep.sourceChain = cr.toUppercase sourceChain ∧ dep.sourceTxHash = sourceTxHash

/-- The locked amount of every asset is what came in less what was released, and no
source event releases twice. -/
theorem ponte_conserva {s₀ : State} {passado : List (State × Acao)} (h₀ : Genese amb s₀)
    (h : Execucao amb s₀ passado s) :
    (∀ ativo, (s.bridge.travado ativo : ℤ) = travadoPor ativo passado - liberadoPor ativo passado ∧
      (0 : ℤ) ≤ travadoPor ativo passado - liberadoPor ativo passado) ∧
    ∀ sourceChain sourceTxHash,
      ((depositosDe passado).filter (deEvento amb.cripto sourceChain sourceTxHash)).length ≤ 1 := by
  refine ⟨fun ativo => ?_, fun sourceChain sourceTxHash => ?_⟩
  · have hsoma := travado_add_liberado h h₀.le ativo
    rw [← hsoma]
    push_cast
    omega
  · obtain ⟨hnodup, -⟩ := chaves_dos_depositos h
    have hmesma : ∀ dep ∈ (depositosDe passado).filter
        (deEvento amb.cripto sourceChain sourceTxHash), dep.replayKey amb.cripto =
          s!"{amb.cripto.toUppercase sourceChain}:{sourceTxHash}" := by
      intro dep hdep
      obtain ⟨hcadeia, hhash⟩ := of_decide_eq_true (List.mem_filter.mp hdep).2
      unfold Deposito.replayKey
      rw [hcadeia, hhash]
    have hsub : (((depositosDe passado).filter
        (deEvento amb.cripto sourceChain sourceTxHash)).map (·.replayKey amb.cripto)).Nodup :=
      hnodup.sublist (List.filter_sublist.map _)
    generalize (depositosDe passado).filter _ = iguais at hmesma hsub ⊢
    match iguais, hmesma, hsub with
    | [], _, _ => exact Nat.zero_le _
    | [_], _, _ => exact le_rfl
    | a :: b :: _, hmesma, hsub =>
      refine absurd ?_ (List.nodup_cons.mp hsub).1
      exact List.mem_cons.mpr (.inl ((hmesma a (by simp)).trans (hmesma b (by simp)).symm))

/-- The native amount that A sends out. -/
def camposSaida : Tx :=
  { txType := "BRIDGE_OUT", de := "", nonce := 1, timestamp := 1, amount := "1000", fee := "1000000"
    data := some (.map [("targetAddress", .str "0xabcd"), ("targetChain", .str "ETH")]) }

def depoisDaSaida : State := depoisDeA camposSaida .bridgeOut estadoPonte 1 1 ⟨0, 1024⟩ 0

theorem saida_aceita :
    Acao.Aceita ambienteComite (.transacao (assinaA camposSaida) 1 1) estadoPonte depoisDaSaida :=
  aceita_de_A (by
    rw [ambienteComite_eq]
    decide +kernel)

theorem ponte_conserva_apos_saida :
    (depoisDaSaida.bridge.travado none : ℤ) =
      travadoPor none [(estadoPonte, .transacao (assinaA camposSaida) 1 1)] -
        liberadoPor none [(estadoPonte, .transacao (assinaA camposSaida) 1 1)] :=
  ((ponte_conserva genese_ponte (Percurso.umPasso saida_aceita)).1 none).1

/-! ## The ids of the tokens -/

section Tokens

instance : Cego State.tokens .accounts := ⟨fun _ => rfl⟩
instance : Cego State.tokens .totalBurned := ⟨fun _ => rfl⟩
instance : Cego State.tokens .bridge := ⟨fun _ => rfl⟩
instance : Cego State.tokens .bridgeRelayers := ⟨fun _ => rfl⟩
instance : Cego State.tokens .bridgeSourceCommittees := ⟨fun _ => rfl⟩
instance : Cego State.tokens .vesting := ⟨fun _ => rfl⟩

theorem cego_tokens {c : Campo} (h : c ≠ .tokens) : Cego State.tokens c := by
  cases c <;> first | exact ⟨fun _ => rfl⟩ | exact absurd rfl h

/-- Every token is stored under the hash that its creation computed. -/
@[reducible] def TokensDeHash (cr : Cripto) : State → Prop :=
  Le State.tokens fun tokens => ∀ id, tokens.contains id = true → ∃ bs, id = cr.eavHash bs

instance (cr : Cripto) : RetocaTokens (TokensDeHash cr) where
  retoca {s id token} novo hs htoken := by
    intro outro houtro
    refine hs outro ?_
    obtain ⟨v, hv⟩ := OrdMap.contains_iff.mp houtro
    rw [OrdMap.get?_insert] at hv
    split_ifs at hv with heq
    · exact OrdMap.contains_iff.mpr ⟨token, heq ▸ htoken⟩
    · exact OrdMap.contains_iff.mpr ⟨v, hv⟩

theorem criar_tokensDeHash (cr : Cripto) (tx : Tx) (ctx : Ctx) :
    Mantem (TokensDeHash cr) (TokenTx.criar cr tx ctx) := by
  refine .get_bind fun s hs => ?_
  repeat with_reducible refine Mantem.lift_bind fun _ => ?_
  refine .bind (debitar_mantem _ _) fun _ => .modify_intro fun u hu => ?_
  intro id hid
  obtain ⟨v, hv⟩ := OrdMap.contains_iff.mp hid
  rw [OrdMap.get?_insert] at hv
  split_ifs at hv with heq
  · exact ⟨_, heq⟩
  · exact hu id (OrdMap.contains_iff.mpr ⟨v, hv⟩)

theorem Acao.Aceita.tokensDeHash {a : Acao} (ha : a.Aceita amb s t)
    (hs : TokensDeHash amb.cripto s) : TokensDeHash amb.cripto t := by
  by_cases htokens : .tokens ∈ a.pegada
  · obtain ⟨tx, height, blockTs, tipo, rfl, htipo, ⟨d⟩⟩ := ha.despacho rfl htokens
    refine d.fim_mantem ?_
    by_cases hcriar : tipo = .tokenCreate
    · subst hcriar
      exact (criar_tokensDeHash _ tx _).ok hs d.maneja
    · refine (manipulador_retoca tx _ hcriar (fun _ => inferInstance) fun c _ hc => ?_).ok hs d.maneja
      have := cego_tokens hc
      infer_instance
  · refine (ha.pegada (I := TokensDeHash amb.cripto) fun c hc => ?_) hs
    have := cego_tokens fun h => htokens (h ▸ hc)
    infer_instance

theorem tokensDeHash_of_execucao {s₀ : State} {passado : List (State × Acao)}
    (h₀ : Genese amb s₀) (h : Execucao amb s₀ passado s) : TokensDeHash amb.cripto s := by
  refine h.invariante ?_ fun hs ha => ha.tokensDeHash hs
  have htokens : s₀.tokens = ({} : State).tokens := h₀.le
  intro id hid
  rw [htokens] at hid
  cases hid

theorem hexMinusculo_of_mem {bs : Bytes} {c : Char} (h : c ∈ (hexEncode bs).toList) :
    c ∈ "0123456789abcdef".toList := by
  unfold hexEncode at h
  rw [String.toList_ofList] at h
  obtain ⟨b, -, hb⟩ := List.mem_flatMap.mp h
  have hdigito : ∀ n < 16, (if n < 10 then Char.ofNat (48 + n) else Char.ofNat ((if false then 55
      else 87) + n)) ∈ "0123456789abcdef".toList := by decide
  simp only [hexByte, List.mem_cons, List.not_mem_nil, or_false] at hb
  have hbaixo : b.toNat % 16 < 16 := Nat.mod_lt _ (by decide)
  have halto : b.toNat / 16 < 16 := Nat.div_lt_of_lt_mul (by have := b.toNat_lt; omega)
  rcases hb with rfl | rfl
  · exact hdigito _ halto
  · exact hdigito _ hbaixo

/-- No token takes the name of the native asset. -/
theorem ne_native {id : String} {bs : Bytes} (h : id = hexEncode bs) : id ≠ "NATIVE" := by
  rintro rfl
  have hn : 'N' ∈ (hexEncode bs).toList := h ▸ by decide
  exact absurd (hexMinusculo_of_mem hn) (by decide)

end Tokens

/-! ## The velocity limit -/

section Disjuntor

theorem somaJanela_eq_ok {corte : ℤ} {ativo : String} {rs : List Release} {total r : Amount}
    (h : BridgeTx.somaJanela corte ativo rs total = .ok r) :
    r = total + (((acima BridgeTx.alturaDe corte rs).filter (·.asset = ativo)).map (·.amount)).sum := by
  induction rs generalizing total with
  | nil =>
    cases h
    exact (Nat.add_zero _).symm
  | cons e rs ih =>
    rw [BridgeTx.somaJanela] at h
    by_cases hcorte : corte < e.height
    · have hacima : acima BridgeTx.alturaDe corte (e :: rs) =
          e :: acima BridgeTx.alturaDe corte rs :=
        List.filter_cons_of_pos (decide_eq_true hcorte)
      rw [hacima]
      by_cases hativo : e.asset = ativo
      · rw [if_pos ⟨hcorte, hativo⟩] at h
        obtain ⟨parcial, hsoma, h⟩ := except_bind_eq_ok.mp h
        obtain ⟨rfl, -⟩ := soma_eq_ok.mp hsoma
        rw [ih h, List.filter_cons, if_pos (decide_eq_true hativo), List.map_cons, List.sum_cons,
          Nat.add_assoc]
      · rw [if_neg fun hc => hativo hc.2] at h
        rw [ih h, List.filter_cons, if_neg (by simpa using hativo)]
    · rw [if_neg fun hc => hcorte hc.1] at h
      have hacima : acima BridgeTx.alturaDe corte (e :: rs) = acima BridgeTx.alturaDe corte rs :=
        List.filter_cons_of_neg fun hc => hcorte (of_decide_eq_true hc)
      rw [hacima]
      exact ih h

/-- What the log still holds of an asset above a cut. -/
def noLog (corte : ℤ) (ativo : String) (log : List Release) : ℕ :=
  (((acima BridgeTx.alturaDe corte log).filter (·.asset = ativo)).map (·.amount)).sum

theorem conferirLiberacao_eq_ok {token : Option String} {ativo : String} {amount : Amount}
    {height : ℕ} {u : Unit}
    (h : BridgeTx.conferirLiberacao s token ativo amount height = .ok u) :
    ∃ bps, paramBps s = .ok bps ∧
      noLog (corteDaJanela height) ativo s.bridge.releaseLog + amount ≤
        bps * (s.bridge.travado token + noLog (corteDaJanela height) ativo s.bridge.releaseLog) /
          BridgeTx.bpsDenom := by
  obtain ⟨travado, htravado, h₁⟩ := except_bind_eq_ok.mp h
  obtain ⟨_, -, h₂⟩ := except_bind_eq_ok.mp h₁
  obtain ⟨janela, hjanela, h₃⟩ := except_bind_eq_ok.mp h₂
  obtain ⟨pool, hpool, h₄⟩ := except_bind_eq_ok.mp h₃
  obtain ⟨bps, hbps, h₅⟩ := except_bind_eq_ok.mp h₄
  obtain ⟨bruto, hbruto, h₆⟩ := except_bind_eq_ok.mp h₅
  obtain ⟨total, htotal, h₇⟩ := except_bind_eq_ok.mp h₆
  have hcap := not_lt.mp (recusar_eq_ok.mp h₇)
  obtain ⟨rfl, -⟩ := soma_eq_ok.mp hpool
  obtain ⟨rfl, -⟩ := produto_eq_ok.mp hbruto
  obtain ⟨rfl, -⟩ := soma_eq_ok.mp htotal
  have hsoma : janela = noLog (corteDaJanela height) ativo s.bridge.releaseLog :=
    (somaJanela_eq_ok hjanela).trans (Nat.zero_add _)
  have hlido : travado = s.bridge.travado token := by
    unfold BridgeTx.travadoDe at htravado
    cases token with
    | none => cases htravado; rfl
    | some t =>
      dsimp only at htravado
      split_ifs at htravado
      · cases htravado
        rfl
      · cases htravado
  rw [hsoma, hlido, Nat.mul_comm] at hcap
  exact ⟨bps, hbps, hcap⟩

theorem liberacao_of_conferir {cr : Cripto} {tx : Tx} {ctx : Ctx} {dep : Deposito}
    (h : conferirDeposito cr s tx ctx = .ok dep) :
    BridgeTx.conferirLiberacao s dep.token dep.ativo dep.amount ctx.height = .ok () := by
  obtain ⟨dep', hler, h₁⟩ := except_bind_eq_ok.mp h
  obtain ⟨_, -, h₂⟩ := except_bind_eq_ok.mp h₁
  obtain ⟨_, -, h₃⟩ := except_bind_eq_ok.mp h₂
  obtain ⟨_, -, h₄⟩ := except_bind_eq_ok.mp h₃
  obtain ⟨_, hlibera, h₅⟩ := except_bind_eq_ok.mp h₄
  cases h₅
  exact hlibera

variable {s₀ : State} {passado : List (State × Acao)}

/-- The release that an action logs. -/
def liberacao? (x : State × Acao) : Option Release :=
  (x.2.deposito? x.1).map fun dep => ⟨x.2.height, dep.ativo, dep.amount⟩

/-- Every release of a run, the oldest first. -/
def liberacoesDe (passado : List (State × Acao)) : List Release :=
  (passado.filterMap liberacao?).reverse

theorem liberacoesDe_cons_none {x : State × Acao} (h : x.2.deposito? x.1 = none) :
    liberacoesDe (x :: passado) = liberacoesDe passado := by
  unfold liberacoesDe
  rw [List.filterMap_cons_none (by rw [liberacao?, h]; rfl)]

theorem liberacoesDe_cons_some {x : State × Acao} {dep : Deposito}
    (h : x.2.deposito? x.1 = some dep) :
    liberacoesDe (x :: passado) =
      liberacoesDe passado ++ [⟨x.2.height, dep.ativo, dep.amount⟩] := by
  unfold liberacoesDe
  rw [List.filterMap_cons_some (b := ⟨x.2.height, dep.ativo, dep.amount⟩)
    (by rw [liberacao?, h]; rfl), List.reverse_cons]

/-- The log keeps every release that a window from this height on may count. -/
theorem podado_of_execucao (h : Execucao amb s₀ passado s) (h₀ : s₀.bridge = {})
    (hordem : EmOrdem passado) (height : ℕ) (hheight : ∀ x ∈ passado, x.2.height ≤ height) :
    Podado BridgeTx.alturaDe (corteDaJanela height) s.bridge.releaseLog (liberacoesDe passado) := by
  induction h generalizing height with
  | inicio =>
    rw [h₀]
    exact .inicio
  | segue h ha ih =>
    rename_i passado s t a
    obtain ⟨hultima, hordem⟩ := List.pairwise_cons.mp hordem
    have hah : corteDaJanela a.height ≤ corteDaJanela height :=
      sub_le_sub_right (Int.ofNat_le.mpr (hheight _ List.mem_cons_self)) _
    have hantes := ih hordem _ hultima
    refine Podado.mono ?_ hah
    have hmuda := ha.mudaPonte
    generalize hb : t.bridge = b at hmuda
    cases hmuda with
    | alheia _ hdep =>
      rw [liberacoesDe_cons_none hdep]
      exact hantes
    | liquida _ hdep =>
      rw [liberacoesDe_cons_none hdep]
      exact hantes
    | trava _ hdep =>
      rw [liberacoesDe_cons_none hdep]
      simpa using hantes
    | solta htx hheight hsaida hdep hconf hle =>
      rw [liberacoesDe_cons_some hdep]
      exact hantes.registra le_rfl _

/-- What a run released of an asset at heights above a cut. -/
def liberadoAcima (corte : ℤ) (ativo : Option String) (passado : List (State × Acao)) : ℕ :=
  liberadoPor ativo (passado.filter fun x => corte < x.2.height)

/-- A release names its asset so that no other asset is counted with it. -/
theorem ativo_inj {cr : Cripto} {tx tx' : Tx} {ctx ctx' : Ctx} {dep dep' : Deposito} {s' : State}
    (hs : TokensDeHash cr s) (hs' : TokensDeHash cr s')
    (h : conferirDeposito cr s tx ctx = .ok dep) (h' : conferirDeposito cr s' tx' ctx' = .ok dep')
    (hativo : dep.ativo = dep'.ativo) : dep.token = dep'.token := by
  have hid : ∀ {u : State} {tx : Tx} {ctx : Ctx} {dep : Deposito} {id : String},
      TokensDeHash cr u → conferirDeposito cr u tx ctx = .ok dep → dep.token = some id →
        id ≠ "NATIVE" := by
    intro u tx ctx dep id hu h htoken
    obtain ⟨travado, htravado, -⟩ := except_bind_eq_ok.mp (liberacao_of_conferir h)
    rw [htoken] at htravado
    dsimp only [BridgeTx.travadoDe] at htravado
    split_ifs at htravado with hcontem
    · obtain ⟨bs, hbs⟩ := hu id hcontem
      exact ne_native hbs
    · cases htravado
  unfold Deposito.ativo at hativo
  cases ht : dep.token with
  | none =>
    cases ht' : dep'.token with
    | none => rfl
    | some id =>
      rw [ht, ht'] at hativo
      exact absurd hativo.symm (hid hs' h' ht')
  | some id =>
    cases ht' : dep'.token with
    | none =>
      rw [ht, ht'] at hativo
      exact absurd hativo (hid hs h ht)
    | some id' =>
      rw [ht, ht'] at hativo
      exact congrArg some hativo

/-- Each deposit of a run was checked on a state that the run reached. -/
theorem conferido_of_mem (h : Execucao amb s₀ passado s) {x : State × Acao} {dep : Deposito}
    (hx : x ∈ passado) (hdep : x.2.deposito? x.1 = some dep) :
    ∃ antes tx ctx, Execucao amb s₀ antes x.1 ∧ x.2.tx? = some tx ∧ ctx.height = x.2.height ∧
      conferirDeposito amb.cripto x.1 tx ctx = .ok dep := by
  obtain ⟨antes, t, hantes, ha, -⟩ := h.disparou hx
  have hmuda := Acao.Aceita.mudaPonte ha
  generalize hb : t.bridge = b at hmuda
  cases hmuda with
  | alheia _ hnone => cases hnone.symm.trans hdep
  | liquida _ hnone => cases hnone.symm.trans hdep
  | trava _ hnone => cases hnone.symm.trans hdep
  | solta htx hheight hsaida hdep' hconf hle =>
    obtain rfl := Option.some.inj (hdep'.symm.trans hdep)
    exact ⟨antes, _, _, hantes, htx, hheight, hconf⟩

/-- The log of a run counts of an asset what the run released of it. -/
theorem noLog_liberacoesDe (passado : List (State × Acao)) (corte : ℤ) (ativo : Option String)
    (hativo : ∀ x ∈ passado, ∀ dep, x.2.deposito? x.1 = some dep →
      (dep.ativo = ativo.getD "NATIVE" ↔ dep.token = ativo)) :
    noLog corte (ativo.getD "NATIVE") (liberacoesDe passado) =
      liberadoAcima corte ativo passado := by
  induction passado with
  | nil => rfl
  | cons x passado ih =>
    obtain ⟨hx, hresto⟩ := List.forall_mem_cons.mp hativo
    have ih := ih hresto
    unfold liberadoAcima at ih ⊢
    cases hdep : x.2.deposito? x.1 with
    | none =>
      rw [liberacoesDe_cons_none hdep, ih, List.filter_cons]
      split_ifs
      · rw [liberadoPor_cons_none hdep]
      · rfl
    | some dep =>
      have hsoma : ∀ rs, noLog corte (ativo.getD "NATIVE")
          (rs ++ [⟨x.2.height, dep.ativo, dep.amount⟩]) =
            noLog corte (ativo.getD "NATIVE") rs +
              if corte < x.2.height ∧ dep.token = ativo then dep.amount else 0 := by
        intro rs
        unfold noLog
        rw [acima_append, List.filter_append, List.map_append, List.sum_append]
        congr 1
        by_cases hcorte : corte < x.2.height
        · by_cases htoken : dep.token = ativo
          · simp [acima, BridgeTx.alturaDe, hcorte, htoken, (hx dep hdep).mpr htoken]
          · simp [acima, BridgeTx.alturaDe, hcorte, htoken, mt (hx dep hdep).mp htoken]
        · simp [acima, BridgeTx.alturaDe, hcorte]
      rw [liberacoesDe_cons_some hdep, hsoma, ih, List.filter_cons]
      by_cases hcorte : corte < x.2.height
      · rw [if_pos (decide_eq_true hcorte), liberadoPor_cons_some hdep, Nat.add_comm]
        simp [hcorte, eq_comm]
      · simp [hcorte]

/-- A release, with all that its asset released in the window, fits the limit in force
over the pool; and the log keeps all that a later window counts. -/
theorem disjuntor_da_ponte {s₀ : State} {passado : List (State × Acao)} {a : Acao}
    {dep : Deposito} (h₀ : Genese amb s₀) (h : Execucao amb s₀ ((s, a) :: passado) t)
    (hordem : EmOrdem ((s, a) :: passado)) (hdep : a.deposito? s = some dep) :
    (∃ bps, paramBps s = .ok bps ∧
      liberadoAcima (corteDaJanela a.height) dep.token ((s, a) :: passado) ≤
        bps * (s.bridge.travado dep.token +
          liberadoAcima (corteDaJanela a.height) dep.token passado) / BridgeTx.bpsDenom) ∧
    ∀ height, a.height ≤ height →
      acima BridgeTx.alturaDe (corteDaJanela height) t.bridge.releaseLog =
        acima BridgeTx.alturaDe (corteDaJanela height) (liberacoesDe ((s, a) :: passado)) := by
  obtain ⟨hultima, hantes⟩ := List.pairwise_cons.mp hordem
  constructor
  · cases h with
    | segue h ha =>
      have hde := h.segue ha
      obtain ⟨-, tx, ctx, -, htx, hheight, hconf⟩ :=
        conferido_of_mem hde List.mem_cons_self hdep
      obtain ⟨bps, hbps, hcap⟩ := conferirLiberacao_eq_ok (liberacao_of_conferir hconf)
      have hlog : noLog (corteDaJanela a.height) dep.ativo s.bridge.releaseLog =
          liberadoAcima (corteDaJanela a.height) dep.token passado := by
        have hpodado := podado_of_execucao h h₀.le hantes _ hultima _ le_rfl
        have hnomes := noLog_liberacoesDe passado (corteDaJanela a.height)
          dep.token ?_
        · rw [← hnomes]
          unfold noLog
          rw [hpodado]
          rfl
        · intro x hx dep' hdep'
          obtain ⟨antes, tx', ctx', hexec, -, -, hconf'⟩ := conferido_of_mem h hx hdep'
          constructor
          · intro hativo
            exact ativo_inj (tokensDeHash_of_execucao h₀ hexec) (tokensDeHash_of_execucao h₀ h)
              hconf' hconf hativo
          · intro htoken
            unfold Deposito.ativo
            rw [htoken]
      have htotal : liberadoAcima (corteDaJanela a.height) dep.token ((s, a) :: passado) =
          liberadoAcima (corteDaJanela a.height) dep.token passado + dep.amount := by
        unfold liberadoAcima
        have hdentro : corteDaJanela a.height < (a.height : ℤ) :=
          sub_lt_self _ (by decide)
        rw [List.filter_cons, if_pos (decide_eq_true hdentro), liberadoPor_cons_some hdep,
          if_pos rfl, Nat.add_comm]
      rw [hheight, hlog] at hcap
      exact ⟨bps, hbps, htotal ▸ hcap⟩
  · intro height hheight
    refine podado_of_execucao h h₀.le hordem a.height ?_ _ ?_
    · intro x hx
      rcases List.mem_cons.mp hx with rfl | hx
      · exact le_rfl
      · exact hultima x hx
    · exact sub_le_sub_right (Int.ofNat_le.mpr hheight) _

/-- The limit of the window, raised to the whole pool by the only validator. -/
def camposLimite : Tx :=
  { txType := "GOV_PROPOSE", de := "", nonce := 2, timestamp := 1, fee := "100000000"
    data := some (.map [("param", .str "BRIDGE_BREAKER_BPS"), ("value", .int 10000)]) }

def depoisDoLimite : State := depoisDeA camposLimite .govPropose depoisDaSaida 1 2 ⟨0, 2048⟩ 0

/-- The tick that puts the new limit in force. -/
def depoisDoTique : State := fim (blockTick 40001) depoisDoLimite

/-- The deposit that empties the pool. -/
def camposEntrada : Tx :=
  { txType := "BRIDGE_IN", de := "", para := some enderecoB, nonce := 3, timestamp := 1
    amount := "1000", fee := "1000000"
    data := some (.map [("proof", .map [("sigs", .list [.map [("r", .int 1), ("recId", .int 0),
        ("s", .str "0x2e6cf94f946f39c4d1c1170579e3b2323f95f64d3585986fa56082775c4cdcc7")]])]),
      ("sourceChain", .str "ETH"), ("sourceTxHash", .str "0xaa")]) }

def depoisDaEntrada : State :=
  depoisDeA camposEntrada .bridgeIn depoisDoTique 40001 3 ⟨0, 1024⟩ 0

def acaoEntrada : Acao := .transacao (assinaA camposEntrada) 40001 40001

/-- The run before the deposit, the newest first. -/
def passadoDaEntrada : List (State × Acao) :=
  [(depoisDoLimite, .tick 40001), (depoisDaSaida, .transacao (assinaA camposLimite) 1 1),
    (estadoPonte, .transacao (assinaA camposSaida) 1 1)]

/-- Every step of the run goes through, and its only deposit is above the constant limit. -/
instance entrada_pronta : Fact
    (pronta ambienteComite (chaveIdeal 0) enderecoA camposLimite .govPropose depoisDaSaida 1 1 2
      ⟨0, 2048⟩ 0 = true ∧
    conclui (blockTick 40001) depoisDoLimite = true ∧
    pronta ambienteComite (chaveIdeal 0) enderecoA camposEntrada .bridgeIn depoisDoTique 40001 40001
      3 ⟨0, 1024⟩ 0 = true ∧
    (acaoEntrada.deposito? depoisDoTique).map (·.token) = some none ∧
    ¬ liberadoAcima (corteDaJanela acaoEntrada.height) none
        ((depoisDoTique, acaoEntrada) :: passadoDaEntrada) ≤
      Config.bridgeBreakerBps * (depoisDoTique.bridge.travado none +
        liberadoAcima (corteDaJanela acaoEntrada.height) none passadoDaEntrada) /
          BridgeTx.bpsDenom ∧
    (depositosDe ((depoisDoTique, acaoEntrada) :: passadoDaEntrada)).length = 1) where
  out := by
    unfold passadoDaEntrada acaoEntrada depoisDoTique depoisDoLimite depoisDaSaida depoisDeA assinaA
    rw [ambienteComite_eq, criptoComite_eq]
    decide +kernel

theorem execucao_da_entrada : Execucao ambienteComite estadoPonte
    ((depoisDoTique, acaoEntrada) :: passadoDaEntrada) depoisDaEntrada := by
  obtain ⟨hlimite, htique, hentrada, -⟩ := entrada_pronta.out
  have hlimite : Acao.Aceita ambienteComite (.transacao (assinaA camposLimite) 1 1) depoisDaSaida
      depoisDoLimite := aceita_de_A hlimite
  have htique : Acao.Aceita ambienteComite (.tick 40001) depoisDoLimite depoisDoTique := by
    obtain ⟨⟨⟩, h⟩ := conclui_iff.mp htique
    exact .tick h
  have hentrada : Acao.Aceita ambienteComite acaoEntrada depoisDoTique depoisDaEntrada :=
    aceita_de_A hentrada
  exact (((Percurso.inicio.segue saida_aceita).segue hlimite).segue htique).segue hentrada

theorem entrada_em_ordem : EmOrdem ((depoisDoTique, acaoEntrada) :: passadoDaEntrada) := by
  unfold EmOrdem passadoDaEntrada acaoEntrada
  simp [Acao.height]

theorem deposito_da_entrada : ∃ dep, acaoEntrada.deposito? depoisDoTique = some dep ∧
    dep.token = none := by
  have hdep := entrada_pronta.out.2.2.2.1
  obtain ⟨dep, hdep, htoken⟩ := Option.map_eq_some_iff.mp hdep
  exact ⟨dep, hdep, htoken⟩

/-- With the limit that governance raised, a run releases more than the constant. -/
theorem disjuntor_acima_da_constante : Genese ambienteComite estadoPonte ∧
    Execucao ambienteComite estadoPonte ((depoisDoTique, acaoEntrada) :: passadoDaEntrada)
      depoisDaEntrada ∧
    EmOrdem ((depoisDoTique, acaoEntrada) :: passadoDaEntrada) ∧
    ∃ dep, acaoEntrada.deposito? depoisDoTique = some dep ∧
      ¬ liberadoAcima (corteDaJanela acaoEntrada.height) dep.token
          ((depoisDoTique, acaoEntrada) :: passadoDaEntrada) ≤
        Config.bridgeBreakerBps * (depoisDoTique.bridge.travado dep.token +
          liberadoAcima (corteDaJanela acaoEntrada.height) dep.token passadoDaEntrada) /
            BridgeTx.bpsDenom := by
  refine ⟨genese_ponte, execucao_da_entrada, entrada_em_ordem, ?_⟩
  obtain ⟨dep, hdep, htoken⟩ := deposito_da_entrada
  refine ⟨dep, hdep, ?_⟩
  rw [htoken]
  exact entrada_pronta.out.2.2.2.2.1

theorem disjuntor_da_entrada : ∃ dep bps, acaoEntrada.deposito? depoisDoTique = some dep ∧
    paramBps depoisDoTique = .ok bps ∧
      liberadoAcima (corteDaJanela acaoEntrada.height) dep.token
          ((depoisDoTique, acaoEntrada) :: passadoDaEntrada) ≤
        bps * (depoisDoTique.bridge.travado dep.token +
          liberadoAcima (corteDaJanela acaoEntrada.height) dep.token passadoDaEntrada) /
            BridgeTx.bpsDenom := by
  obtain ⟨dep, hdep, -⟩ := deposito_da_entrada
  obtain ⟨bps, hbps, hcap⟩ :=
    (disjuntor_da_ponte genese_ponte execucao_da_entrada entrada_em_ordem hdep).1
  exact ⟨dep, bps, hdep, hbps, hcap⟩

end Disjuntor

end Eav7
