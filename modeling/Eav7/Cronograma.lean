import Eav7.Ciclo

/-!
# Vesting over a run

What a schedule has released at a height is a number that grows with the height up to the
total. Every accepted action either leaves the schedules alone, opens one, or pays the
beneficiary of one what is released and not yet paid; so over a run the record of a schedule
is what the payments of the run leave of it.
-/

namespace Eav7

open Base

variable {amb : Ambiente} {s t : State}

/-! ## The schedule -/

namespace Vesting

/-- What is released at a height, where no product overflows. -/
def vencido (v : Vesting) (height : ℕ) : Amount :=
  if height < min (v.start + v.cliff) u64Max then 0
  else if min (v.start + v.duration) u64Max ≤ height then v.total
  else v.total * (height - v.start) / v.duration

variable {v : Vesting} {height : ℕ}

theorem vested_eq_ok {a : Amount} (h : v.vested height = .ok a) : a = v.vencido height := by
  unfold vested at h
  unfold vencido
  split_ifs at h ⊢
  · exact (Except.ok.inj h).symm
  · exact (Except.ok.inj h).symm
  · obtain ⟨p, hp, h⟩ := except_bind_eq_ok.mp h
    obtain ⟨rfl, -⟩ := produto_eq_ok.mp hp
    exact (Except.ok.inj h).symm

theorem vencido_le_total (v : Vesting) (height : ℕ) : v.vencido height ≤ v.total := by
  unfold vencido
  split_ifs with hcliff hfim
  · exact Nat.zero_le _
  · exact le_refl _
  · refine Nat.div_le_of_le_mul ?_
    rw [Nat.mul_comm]
    exact Nat.mul_le_mul_right _ (by omega)

/-- What is released grows with the height. -/
theorem vencido_mono (v : Vesting) {a b : ℕ} (h : a ≤ b) : v.vencido a ≤ v.vencido b := by
  by_cases hcliff : a < min (v.start + v.cliff) u64Max
  · unfold vencido
    rw [if_pos hcliff]
    exact Nat.zero_le _
  · have hb : ¬ b < min (v.start + v.cliff) u64Max := by omega
    by_cases hfim : min (v.start + v.duration) u64Max ≤ b
    · refine (vencido_le_total v a).trans (le_of_eq ?_)
      unfold vencido
      rw [if_neg hb, if_pos hfim]
    · unfold vencido
      rw [if_neg hcliff, if_neg hb, if_neg hfim, if_neg (by omega)]
      exact Nat.div_le_div_right (Nat.mul_le_mul_left _ (by omega))

/-- Nothing is released before the cliff. -/
theorem cliff_of_vencido (h : 0 < v.vencido height) :
    min (v.start + v.cliff) u64Max ≤ height := by
  by_contra hcedo
  unfold vencido at h
  rw [if_pos (Nat.lt_of_not_le hcedo)] at h
  cases h

end Vesting

/-! ## What the handlers do to the schedules -/

def vestingIdDe (tx : Tx) : String := (texto (tx.campo "vestingId")).getD ""

/-- A schedule as its creation at a height leaves it. -/
structure Vesting.Novo (v : Vesting) (height : ℕ) : Prop where
  claimed : v.claimed = 0
  total : 0 < v.total
  start : v.start = height
  duration : 0 < v.duration
  cliff : v.cliff ≤ v.duration

/-- A schedule as the transaction that creates it asks for it. -/
structure Vesting.Pedido (v : Vesting) (cr : Cripto) (tx : Tx) : Prop where
  beneficiario : enderecoEm cr (tx.campo "beneficiary") "beneficiário inválido" = .ok v.beneficiary
  total : amountDaTx tx = .ok v.total
  duracao : duracaoVesting (tx.campo "durationBlocks") = .ok v.duration
  cliff : cliffVesting (tx.campo "cliffBlocks") v.duration = .ok v.cliff

theorem duracaoVesting_pos {v : Option JsonValue} {d : ℕ} (h : duracaoVesting v = .ok d) :
    0 < d := by
  obtain ⟨i, hi, h⟩ := Option.bind_eq_some_iff.mp (exigir_eq_ok.mp h)
  split_ifs at h with hd
  cases h
  omega

theorem cliffVesting_le {v : Option JsonValue} {c d : ℕ} (h : cliffVesting v d = .ok c) :
    c ≤ d := by
  have hfim {i : ℤ} (h : (do recusar (i < 0 ∨ (d : ℤ) < i) "cliff inválido"; return i.toNat) =
      Except.ok c) : c ≤ d := by
    obtain ⟨_, hi, h⟩ := except_bind_eq_ok.mp h
    have hi := recusar_eq_ok.mp hi
    cases h
    omega
  unfold cliffVesting at h
  split at h
  all_goals
    obtain ⟨i, -, h⟩ := except_bind_eq_ok.mp h
    exact hfim h

theorem vestingCreate_eq_ok {cr : Cripto} {tx : Tx} {ctx : Ctx} {u : Unit}
    (h : vestingCreate cr tx ctx s = .ok u t) :
    ∃ id v, tx.id = some id ∧ v.Novo ctx.height ∧ v.Pedido cr tx ∧
      t.vesting = s.vesting.insert id v ∧
      t.balanceOf tx.de + (v.total + ctx.fee) = s.balanceOf tx.de := by
  unfold vestingCreate at h
  rw [get_bind_run] at h
  obtain ⟨beneficiario, hbeneficiario, h⟩ := lift_bind_eq_ok.mp h
  obtain ⟨amount, hamount, h⟩ := lift_bind_eq_ok.mp h
  obtain ⟨_, hpositivo, h⟩ := lift_bind_eq_ok.mp h
  obtain ⟨duracao, hduracao, h⟩ := lift_bind_eq_ok.mp h
  obtain ⟨cliff, hcliff, h⟩ := lift_bind_eq_ok.mp h
  obtain ⟨total, htotal, h⟩ := lift_bind_eq_ok.mp h
  obtain ⟨_, -, h⟩ := lift_bind_eq_ok.mp h
  obtain ⟨id, hid, h⟩ := lift_bind_eq_ok.mp h
  obtain ⟨⟨⟩, w, hdebita, h⟩ := bind_eq_ok.mp h
  obtain ⟨hsaldo, rfl⟩ := debitar_eq_ok hdebita
  obtain ⟨rfl, -⟩ := soma_eq_ok.mp htotal
  cases h
  have hnovo : Vesting.Novo ⟨beneficiario, amount, 0, ctx.height, cliff, duracao⟩ ctx.height :=
    ⟨rfl, Nat.pos_of_ne_zero (recusar_eq_ok.mp hpositivo), rfl, duracaoVesting_pos hduracao,
      cliffVesting_le hcliff⟩
  refine ⟨id, _, exigir_eq_ok.mp hid, hnovo, ⟨hbeneficiario, hamount, hduracao, hcliff⟩, rfl, ?_⟩
  change (s.comSaldo tx.de _).balanceOf tx.de + _ = _
  rw [balanceOf_comSaldo_apply, if_pos rfl]
  exact Nat.sub_add_cancel hsaldo

/-- The schedules once one of them has paid all that a height releases. -/
def comResgate (m : OrdMap String Vesting) (id : String) (v : Vesting) (height : ℕ) :
    OrdMap String Vesting :=
  if v.total ≤ v.vencido height then m.erase id
  else m.insert id { v with claimed := v.vencido height }

theorem vestingClaim_eq_ok {tx : Tx} {ctx : Ctx} {u : Unit} (h : vestingClaim tx ctx s = .ok u t) :
    ∃ v, s.vesting.get? (vestingIdDe tx) = some v ∧ v.beneficiary = tx.de ∧
      v.claimed < v.vencido ctx.height ∧
      t.vesting = comResgate s.vesting (vestingIdDe tx) v ctx.height ∧
      t.balanceOf tx.de + ctx.fee = s.balanceOf tx.de + (v.vencido ctx.height - v.claimed) := by
  unfold vestingClaim at h
  rw [get_bind_run] at h
  obtain ⟨v, hv, h⟩ := lift_bind_eq_ok.mp h
  obtain ⟨_, hbeneficiario, h⟩ := lift_bind_eq_ok.mp h
  obtain ⟨_, -, h⟩ := lift_bind_eq_ok.mp h
  obtain ⟨vencido, hvencido, h⟩ := lift_bind_eq_ok.mp h
  obtain ⟨_, hlivre, h⟩ := lift_bind_eq_ok.mp h
  obtain ⟨novo, hnovo, h⟩ := lift_bind_eq_ok.mp h
  obtain ⟨_, -, h⟩ := lift_bind_eq_ok.mp h
  obtain ⟨⟨⟩, w, hdebita, h⟩ := bind_eq_ok.mp h
  obtain ⟨hsaldo, rfl⟩ := debitar_eq_ok hdebita
  obtain ⟨⟨⟩, w, hcredita, h⟩ := bind_eq_ok.mp h
  obtain rfl := creditar_eq_ok hcredita
  obtain rfl := Vesting.vested_eq_ok hvencido
  obtain ⟨rfl, -⟩ := soma_eq_ok.mp hnovo
  have hlivre : v.claimed < v.vencido ctx.height :=
    Nat.lt_of_sub_ne_zero (recusar_eq_ok.mp hlivre)
  rw [Nat.add_sub_cancel' hlivre.le] at h
  have ht : t = { (s.comSaldo tx.de (s.balanceOf tx.de - ctx.fee)).comSaldo tx.de
      ((s.comSaldo tx.de (s.balanceOf tx.de - ctx.fee)).balanceOf tx.de +
        (v.vencido ctx.height - v.claimed)) with
      vesting := comResgate s.vesting (vestingIdDe tx) v ctx.height } := by
    refine (EStateM.Result.ok.inj h).2.symm.trans ?_
    unfold comResgate
    split_ifs <;> rfl
  refine ⟨v, exigir_eq_ok.mp hv, not_not.mp (recusar_eq_ok.mp hbeneficiario), hlivre, ?_, ?_⟩
  · rw [ht]
  · have hsaldos : t.balanceOf tx.de =
        s.balanceOf tx.de - ctx.fee + (v.vencido ctx.height - v.claimed) := by
      rw [ht]
      refine (balanceOf_comSaldo_apply ..).trans ?_
      rw [if_pos rfl, balanceOf_comSaldo_apply, if_pos rfl]
    rw [hsaldos, Nat.add_right_comm, Nat.sub_add_cancel hsaldo]

/-! ## What an accepted action does to the schedules -/

/-- The transaction of an action of a type. -/
def Acao.txDe (tipo : Tipo) (a : Acao) : Option Tx := if a.tipo? = some tipo then a.tx? else none

theorem Acao.tipo?_of_txDe {a : Acao} {tipo : Tipo} {tx : Tx} (h : a.txDe tipo = some tx) :
    a.tipo? = some tipo := by
  unfold Acao.txDe at h
  split_ifs at h with htipo
  exact htipo

/-- What an action does to the schedules, and what the account that signs it is charged. -/
inductive MudaVesting (cr : Cripto) (s : State) (a : Acao) (t : State) : Prop
  | alheia (hcria : a.txDe .vestingCreate = none) (hresgata : a.txDe .vestingClaim = none)
    (h : t.vesting = s.vesting)
  | cria {tx : Tx} {gb : Peek} {fee : Amount} {id : String} {v : Vesting}
    (htx : a.txDe .vestingCreate = some tx) (htaxa : apurarTaxa s tx a.height = .ok (gb, fee))
    (hid : tx.id = some id) (hnovo : v.Novo a.height) (hpedido : v.Pedido cr tx)
    (h : t.vesting = s.vesting.insert id v)
    (hsaldo : t.balanceOf tx.de + (v.total + fee) = s.balanceOf tx.de)
  | resgata {tx : Tx} {gb : Peek} {fee : Amount} {v : Vesting}
    (htx : a.txDe .vestingClaim = some tx) (htaxa : apurarTaxa s tx a.height = .ok (gb, fee))
    (hv : s.vesting.get? (vestingIdDe tx) = some v) (hbeneficiario : v.beneficiary = tx.de)
    (hlivre : v.claimed < v.vencido a.height)
    (h : t.vesting = comResgate s.vesting (vestingIdDe tx) v a.height)
    (hsaldo : t.balanceOf tx.de + fee = s.balanceOf tx.de + (v.vencido a.height - v.claimed))

/-- Only two handlers write the schedules. -/
theorem vesting_na_pegada {a : Acao} (h : Campo.vesting ∈ a.pegada) :
    a.tipo? = some .vestingCreate ∨ a.tipo? = some .vestingClaim := by
  cases a with
  | transacao tx height blockTs =>
    by_cases hvm : tx.txType ∈ EavmTx.tipos
    · simp [Acao.pegada, hvm] at h
    · have htipo : (Acao.transacao tx height blockTs).tipo? = Tipo.deTexto tx.txType := by
        simp [Acao.tipo?, Acao.tx?, hvm]
      rw [htipo]
      cases hdeTexto : Tipo.deTexto tx.txType with
      | none => simp [Acao.pegada, hvm, hdeTexto] at h
      | some tipo =>
        have h : Campo.vesting ∈ tipo.pegada := by simpa [Acao.pegada, hvm, hdeTexto] using h
        cases tipo <;> first | exact .inl rfl | exact .inr rfl | exact absurd h (by decide)
  | tick => simp [Acao.pegada] at h
  | abre => simp [Acao.pegada] at h
  | emite => simp [Acao.pegada] at h

theorem cego_vesting {c : Campo} (h : c ≠ .vesting) : Cego State.vesting c := by
  cases c <;> first | exact ⟨fun _ => rfl⟩ | exact absurd rfl h

/-- What every accepted action does to the schedules. -/
theorem Acao.Aceita.mudaVesting {a : Acao} (ha : a.Aceita amb s t) :
    MudaVesting amb.cripto s a t := by
  by_cases hpegada : Campo.vesting ∈ a.pegada
  · obtain ⟨tx, height, blockTs, tipo, rfl, htipo, ⟨d⟩⟩ := ha.despacho rfl hpegada
    have hvesting : t.vesting = d.meio.vesting := by
      obtain ⟨burned, hfim⟩ := d.fim
      exact (congrArg State.vesting hfim).trans rfl
    have htx : (Acao.transacao tx height blockTs).txDe tipo = some tx := if_pos htipo
    rcases vesting_na_pegada hpegada with h | h
    all_goals
      obtain rfl := Option.some.inj (htipo.symm.trans h)
      have hmaneja := d.maneja
    · obtain ⟨id, v, hid, hnovo, hpedido, hm, hsaldo⟩ := vestingCreate_eq_ok hmaneja
      rw [← d.saldos_fim] at hsaldo
      exact .cria htx d.taxa hid hnovo hpedido (hvesting.trans hm) hsaldo
    · obtain ⟨v, hv, hbeneficiario, hlivre, hm, hsaldo⟩ := vestingClaim_eq_ok hmaneja
      rw [← d.saldos_fim] at hsaldo
      exact .resgata htx d.taxa hv hbeneficiario hlivre (hvesting.trans hm) hsaldo
  · have hfora {tipo : Tipo} (htipo : Campo.vesting ∈ tipo.pegada) : a.txDe tipo = none :=
      if_neg fun h => hpegada (Acao.pegada_of_tipo h htipo)
    refine .alheia (hfora (by decide)) (hfora (by decide)) (ha.le fun c hc => ?_)
    exact cego_vesting fun h => hpegada (h ▸ hc)

/-! ## What a run pays from a schedule -/

/-- What an accepted action credits from a schedule. -/
def creditoDe (id : String) (x : State × Acao) : Amount :=
  match x.2.txDe .vestingClaim with
  | some tx =>
    if vestingIdDe tx = id then
      (x.1.vesting.get? id).elim 0 fun v => v.vencido x.2.height - v.claimed
    else 0
  | none => 0

/-- What a run credited from a schedule. -/
def creditado (id : String) (passado : List (State × Acao)) : Amount :=
  (passado.map (creditoDe id)).sum

/-- What a run credited from a schedule up to a height. -/
def creditadoAte (id : String) (height : ℕ) (passado : List (State × Acao)) : Amount :=
  creditado id (passado.filter fun x => x.2.height ≤ height)

/-- The record of a schedule agrees with what was credited from it since it was opened: it
is gone once all is paid, and what was paid up to a height was released by then. -/
structure Vesting.EmDia (v : Vesting) (id : String) (passado : List (State × Acao)) (s : State) :
    Prop where
  registro : s.vesting.get? id = if creditado id passado = v.total then none
    else some { v with claimed := creditado id passado }
  ate : ∀ height, creditadoAte id height passado ≤ v.vencido height

/-- An accepted claim pays the beneficiary all that its height releases, after the cliff. -/
structure Vesting.Paga (amb : Ambiente) (v : Vesting) (id : String) (x : State × Acao)
    (antes : List (State × Acao)) (tx : Tx) : Prop where
  tudo : creditado id (x :: antes) = v.vencido x.2.height
  cliff : min (v.start + v.cliff) u64Max ≤ x.2.height
  beneficiario : tx.de = v.beneficiary
  saldo : ∀ t, x.2.Aceita amb x.1 t → ∃ gb fee, apurarTaxa x.1 tx x.2.height = .ok (gb, fee) ∧
    t.balanceOf tx.de + fee = x.1.balanceOf tx.de + creditoDe id x

section

variable {id : String} {v : Vesting} {a : Acao} {passado : List (State × Acao)}

theorem creditado_cons (x : State × Acao) :
    creditado id (x :: passado) = creditoDe id x + creditado id passado := List.sum_cons

/-- Heights that never go down are all within the newest one. -/
theorem creditadoAte_cons {x : State × Acao}
    (hordem : ∀ y ∈ passado, y.2.height ≤ x.2.height) (height : ℕ) :
    creditadoAte id height (x :: passado) =
      if x.2.height ≤ height then creditado id (x :: passado)
      else creditadoAte id height passado := by
  unfold creditadoAte
  rw [List.filter_cons]
  by_cases h : x.2.height ≤ height
  · rw [if_pos (decide_eq_true h), if_pos h, List.filter_eq_self.mpr]
    exact fun y hy => decide_eq_true ((hordem y hy).trans h)
  · rw [if_neg (by simpa using h), if_neg h]

/-- An action that claims from another schedule, or from none, credits nothing from this one. -/
theorem creditoDe_alheio (h : ∀ tx, a.txDe .vestingClaim = some tx → vestingIdDe tx ≠ id) :
    creditoDe id (s, a) = 0 := by
  unfold creditoDe
  cases htx : a.txDe .vestingClaim with
  | none => rfl
  | some tx => exact if_neg (h tx htx)

theorem creditoDe_resgate {tx : Tx} (htx : a.txDe .vestingClaim = some tx)
    (hv : s.vesting.get? (vestingIdDe tx) = some v) :
    creditoDe (vestingIdDe tx) (s, a) = v.vencido a.height - v.claimed := by
  unfold creditoDe
  simp only [htx, if_true, hv]
  rfl

/-- A record that no action touches keeps its books. -/
theorem Vesting.EmDia.alheio (h : v.EmDia id passado s) (hcredito : creditoDe id (s, a) = 0)
    (hordem : ∀ y ∈ passado, y.2.height ≤ a.height)
    (hget : t.vesting.get? id = s.vesting.get? id) : v.EmDia id ((s, a) :: passado) t := by
  have hconta : creditado id ((s, a) :: passado) = creditado id passado := by
    rw [creditado_cons, hcredito, Nat.zero_add]
  refine ⟨?_, fun height => ?_⟩
  · rw [hconta, hget]
    exact h.registro
  · rw [creditadoAte_cons hordem]
    split_ifs with hh
    · rw [hconta]
      refine le_trans (le_of_eq ?_) (h.ate height)
      unfold creditadoAte
      rw [List.filter_eq_self.mpr fun y hy => decide_eq_true ((hordem y hy).trans hh)]
    · exact h.ate height

/-- A claim leaves paid all that its height releases. -/
theorem Vesting.EmDia.resgate (h : v.EmDia id passado s)
    (hordem : ∀ y ∈ passado, y.2.height ≤ a.height) {w : Vesting} (hw : s.vesting.get? id = some w)
    (hlivre : w.claimed < w.vencido a.height)
    (hcredito : creditoDe id (s, a) = w.vencido a.height - w.claimed)
    (hmuda : t.vesting = comResgate s.vesting id w a.height) :
    w.beneficiary = v.beneficiary ∧ creditado id ((s, a) :: passado) = v.vencido a.height ∧
      v.EmDia id ((s, a) :: passado) t := by
  have hregistro := hw.symm.trans h.registro
  by_cases hfim : creditado id passado = v.total
  · rw [if_pos hfim] at hregistro
    cases hregistro
  rw [if_neg hfim] at hregistro
  obtain rfl := Option.some.inj hregistro
  have hvencido : Vesting.vencido { v with claimed := creditado id passado } a.height =
    v.vencido a.height := rfl
  rw [hvencido] at hlivre hcredito
  have hconta : creditado id ((s, a) :: passado) = v.vencido a.height := by
    rw [creditado_cons, hcredito]
    exact Nat.sub_add_cancel hlivre.le
  refine ⟨rfl, hconta, ?_, fun height => ?_⟩
  · rw [hconta, hmuda]
    unfold comResgate
    rw [hvencido]
    by_cases hpago : v.total ≤ v.vencido a.height
    · rw [if_pos hpago, if_pos (le_antisymm (vencido_le_total v _) hpago)]
      exact OrdMap.get?_erase_self ..
    · rw [if_neg hpago, if_neg fun heq => hpago heq.ge]
      exact OrdMap.get?_insert_self ..
  · rw [creditadoAte_cons hordem]
    split_ifs with hh
    · rw [hconta]
      exact vencido_mono v hh
    · exact h.ate height

/-- One accepted action keeps the books of a schedule, and pays it out if it claims it. -/
theorem Vesting.EmDia.segue (h : v.EmDia id passado s)
    (hordem : ∀ y ∈ passado, y.2.height ≤ a.height)
    (hnova : ∀ tx, a.txDe .vestingCreate = some tx → tx.id ≠ some id)
    (ha : a.Aceita amb s t) :
    v.EmDia id ((s, a) :: passado) t ∧
      ∀ tx, a.txDe .vestingClaim = some tx → vestingIdDe tx = id →
        v.Paga amb id (s, a) passado tx := by
  cases ha.mudaVesting with
  | alheia hcria hresgata hmuda =>
    have hcredito : creditoDe id (s, a) = 0 := creditoDe_alheio fun tx htx => by
      rw [hresgata] at htx
      cases htx
    refine ⟨h.alheio hcredito hordem (congrArg (OrdMap.get? · id) hmuda), fun tx htx => ?_⟩
    rw [hresgata] at htx
    cases htx
  | @cria tx gb fee outro w htx htaxa hid hnovo hpedido hmuda hsaldo =>
    have hcria := Acao.tipo?_of_txDe htx
    have hresgata (tx' : Tx) : a.txDe .vestingClaim ≠ some tx' := fun h => by
      have h := hcria.symm.trans (Acao.tipo?_of_txDe h)
      cases h
    have houtro : id ≠ outro := fun h => hnova tx htx (hid.trans (congrArg some h.symm))
    have hcredito : creditoDe id (s, a) = 0 :=
      creditoDe_alheio fun tx' htx' => absurd htx' (hresgata tx')
    refine ⟨h.alheio hcredito hordem ?_, fun tx' htx' => absurd htx' (hresgata tx')⟩
    rw [hmuda]
    exact OrdMap.get?_insert_of_ne _ houtro _
  | @resgata tx gb fee w htx htaxa hw hbeneficiario hlivre hmuda hsaldo =>
    by_cases hid : vestingIdDe tx = id
    · subst hid
      have hcredito := creditoDe_resgate htx hw
      obtain ⟨hmesmo, hconta, hdia⟩ := h.resgate hordem hw hlivre hcredito hmuda
      refine ⟨hdia, fun tx' htx' _ => ?_⟩
      obtain rfl := Option.some.inj (htx.symm.trans htx')
      refine ⟨hconta, ?_, hbeneficiario.symm.trans hmesmo, fun u hu => ?_⟩
      · refine cliff_of_vencido ?_
        rw [← hconta, creditado_cons, hcredito]
        exact (Nat.sub_pos_of_lt hlivre).trans_le (Nat.le_add_right _ _)
      · cases hu.mudaVesting with
        | alheia _ hresgata =>
          rw [hresgata] at htx
          cases htx
        | cria hcria =>
          have h := (Acao.tipo?_of_txDe htx).symm.trans (Acao.tipo?_of_txDe hcria)
          cases h
        | @resgata tx' gb' fee' w' htx'' htaxa' hw' _ _ _ hsaldo' =>
          obtain rfl := Option.some.inj (htx.symm.trans htx'')
          obtain rfl := Option.some.inj (hw.symm.trans hw')
          rw [← hcredito] at hsaldo'
          exact ⟨gb', fee', htaxa', hsaldo'⟩
    · have houtro (tx' : Tx) (htx' : a.txDe .vestingClaim = some tx') : vestingIdDe tx' ≠ id := by
        obtain rfl := Option.some.inj (htx.symm.trans htx')
        exact hid
      refine ⟨h.alheio (creditoDe_alheio houtro) hordem ?_,
        fun tx' htx' hid' => absurd hid' (houtro tx' htx')⟩
      rw [hmuda]
      unfold comResgate
      split_ifs
      · exact OrdMap.get?_erase_of_ne _ (Ne.symm hid)
      · exact OrdMap.get?_insert_of_ne _ (Ne.symm hid) _

/-- From its creation on, a run keeps the books of a schedule that no other creation writes. -/
theorem Vesting.Novo.emDia {s₀ : State} {height : ℕ} (hnovo : v.Novo height)
    (hv : s₀.vesting.get? id = some v) (h : Execucao amb s₀ passado s) (hordem : EmOrdem passado)
    (hnova : ∀ x ∈ passado, ∀ tx, x.2.txDe .vestingCreate = some tx → tx.id ≠ some id) :
    v.EmDia id passado s := by
  induction h with
  | inicio =>
    refine ⟨?_, fun _ => Nat.zero_le _⟩
    have hzero : creditado id [] = 0 := rfl
    rw [hzero, if_neg hnovo.total.ne, hv, ← hnovo.claimed]
  | segue h ha ih =>
    obtain ⟨hantes, hordem⟩ := List.pairwise_cons.mp hordem
    have hdia := ih hordem fun x hx => hnova x (List.mem_cons_of_mem _ hx)
    exact (hdia.segue hantes (hnova _ List.mem_cons_self) ha).1

/-- A schedule that a run opens pays exactly what it releases: its creator is charged the
total, what was paid up to a height is at most what that height releases, which grows up to the
total; a claim pays the beneficiary the rest of what its height releases, and none is accepted
before the cliff, where the sum of heights saturates; and the record is gone exactly when the
total is paid. -/
theorem vesting_paga_o_vencido {s₀ : State} {depois antes : List (State × Acao)}
    {x : State × Acao} {tx : Tx} (h : Execucao amb s₀ (depois ++ x :: antes) s)
    (hids : (idsDaExecucao (depois ++ x :: antes)).Nodup) (hordem : EmOrdem (depois ++ x :: antes))
    (htx : x.2.txDe .vestingCreate = some tx) (hid : tx.id = some id) :
    ∃ v, v.Novo x.2.height ∧ v.Pedido amb.cripto tx ∧
      (∃ gb fee t, apurarTaxa x.1 tx x.2.height = .ok (gb, fee) ∧ x.2.Aceita amb x.1 t ∧
        Execucao amb t depois s ∧ t.vesting = x.1.vesting.insert id v ∧
        t.balanceOf tx.de + (v.total + fee) = x.1.balanceOf tx.de) ∧
      (∀ height a, v.vested height = .ok a → a = v.vencido height) ∧
      (∀ a b, a ≤ b → v.vencido a ≤ v.vencido b) ∧ (∀ height, v.vencido height ≤ v.total) ∧
      v.EmDia id depois s ∧
      ∀ fim y meio, depois = fim ++ y :: meio →
        ∀ tx', y.2.txDe .vestingClaim = some tx' → vestingIdDe tx' = id →
          v.Paga amb id y meio tx' := by
  obtain ⟨-, t, ha, hdepois⟩ := h.corta
  have hdepoisOrdem : EmOrdem depois := (List.pairwise_append.mp hordem).1
  have hnova : ∀ y ∈ depois, ∀ tx', y.2.txDe .vestingCreate = some tx' → tx'.id ≠ some id := by
    intro y hy tx' htx' hid'
    have hmesmo : y.2.id? = some id := by
      unfold Acao.txDe at htx'
      split_ifs at htx'
      unfold Acao.id?
      rw [htx', Option.map_some, hid']
      rfl
    have hx : x.2.id? = some id := by
      unfold Acao.txDe at htx
      split_ifs at htx
      unfold Acao.id?
      rw [htx, Option.map_some, hid]
      rfl
    unfold idsDaExecucao at hids
    rw [List.filterMap_append, List.filterMap_cons_some (f := fun x : State × Acao => x.2.id?) hx]
      at hids
    exact (List.nodup_append.mp hids).2.2 id (List.mem_filterMap.mpr ⟨y, hy, hmesmo⟩) id
      List.mem_cons_self rfl
  cases ha.mudaVesting with
  | alheia hcria =>
    rw [hcria] at htx
    cases htx
  | resgata hresgata =>
    have h := (Acao.tipo?_of_txDe htx).symm.trans (Acao.tipo?_of_txDe hresgata)
    cases h
  | @cria tx' gb fee id' v htx' htaxa hid' hnovo hpedido hmuda hsaldo =>
    obtain rfl := Option.some.inj (htx.symm.trans htx')
    obtain rfl := Option.some.inj (hid.symm.trans hid')
    have hv : t.vesting.get? id = some v := by
      rw [hmuda]
      exact OrdMap.get?_insert_self ..
    refine ⟨v, hnovo, hpedido, ⟨gb, fee, t, htaxa, ha, hdepois, hmuda, hsaldo⟩,
      fun _ _ => Vesting.vested_eq_ok, fun _ _ => v.vencido_mono, v.vencido_le_total,
      hnovo.emDia hv hdepois hdepoisOrdem hnova, ?_⟩
    rintro fim y meio rfl tx' htx' hid'
    obtain ⟨hmeio, u, hy, -⟩ := hdepois.corta
    have hordemMeio := List.pairwise_cons.mp (List.pairwise_append.mp hdepoisOrdem).2.1
    have hdia := hnovo.emDia hv hmeio hordemMeio.2 fun z hz =>
      hnova z (List.mem_append_right _ (List.mem_cons_of_mem _ hz))
    exact (hdia.segue hordemMeio.1 (hnova y (List.mem_append_right _ List.mem_cons_self)) hy).2
      tx' htx' hid'

end

/-! ## A schedule that is claimed -/

def camposVesting : Tx :=
  { txType := "VESTING_CREATE", de := "", nonce := 1, timestamp := 1, amount := "100", fee := "0"
    data := some (.map [("beneficiary", .str enderecoB), ("cliffBlocks", .int 10),
      ("durationBlocks", .int 20)]) }

def idDoVesting : String := "e26530920aa975da46b24a72d7fc51591289861ee63df5aba476c7f0189b6347"

def camposResgate : Tx :=
  { txType := "VESTING_CLAIM", de := "", nonce := 1, timestamp := 1, fee := "0"
    data := some (.map [("vestingId", .str idDoVesting)]) }

def atoVesting (height : ℕ) : Ato :=
  ⟨chaveIdeal 0, enderecoA, camposVesting, .vestingCreate, height, 1, 1, ⟨0, 1024⟩, 0⟩

def atoResgate (height : ℕ) : Ato :=
  ⟨chaveIdeal 1, enderecoB, camposResgate, .vestingClaim, height, 1, 1, ⟨0, 1024⟩, 0⟩

/-- A schedule that is opened at a height and claimed at another one. -/
def roteiroVesting (aberta resgatada : ℕ) : List Ato := [atoVesting aberta, atoResgate resgatada]

theorem conta_de_roteiroVesting {aberta resgatada : ℕ} :
    ∀ ato ∈ roteiroVesting aberta resgatada, (ato.chave, ato.endereco) ∈ contasIa := by
  simp [roteiroVesting, atoVesting, atoResgate, contasIa]

theorem execucao_vesting {aberta resgatada : ℕ}
    (h : ensaia ambienteIdeal estadoIa (roteiroVesting aberta resgatada) = true) :
    Execucao ambienteIdeal estadoIa
      [((atoVesting aberta).depois ambienteIdeal estadoIa,
          (atoResgate resgatada).acao ambienteIdeal),
        (estadoIa, (atoVesting aberta).acao ambienteIdeal)]
      (encena ambienteIdeal estadoIa (roteiroVesting aberta resgatada)) :=
  execucao_ia conta_de_roteiroVesting h

/-- The schedule is paid at the last height, and at its fifteenth block. -/
instance roteiros_vesting : Fact
    (ensaia ambienteIdeal estadoIa (roteiroVesting (2 ^ 64 - 2) (2 ^ 64 - 1)) = true ∧
    (((atoVesting (2 ^ 64 - 2)).depois ambienteIdeal estadoIa).vesting.get? idDoVesting).any
      (fun v => decide (0 < v.vencido (2 ^ 64 - 1) - v.claimed ∧
        2 ^ 64 - 1 < v.start + v.cliff)) = true ∧
    ensaia ambienteIdeal estadoIa (roteiroVesting 1 16) = true ∧
    ((atoVesting 1).assinada ambienteIdeal).id = some idDoVesting ∧
    (idsDaExecucao [((atoVesting 1).depois ambienteIdeal estadoIa,
      (atoResgate 16).acao ambienteIdeal), (estadoIa, (atoVesting 1).acao ambienteIdeal)]).Nodup)
      where
  out := by
    rw [ambienteIdeal_eq]
    decide +kernel

/-- At the last height the sum of the start and the cliff saturates, and the claim is paid
before the cliff. -/
theorem pago_antes_do_cliff : ∃ passado s x tx v, Execucao ambienteIdeal estadoIa passado s ∧
    x ∈ passado ∧ x.2.txDe .vestingClaim = some tx ∧
    x.1.vesting.get? (vestingIdDe tx) = some v ∧ 0 < creditoDe (vestingIdDe tx) x ∧
    x.2.height < u64Limit ∧ x.2.height < v.start + v.cliff := by
  obtain ⟨hensaia, hsaldo, -⟩ := roteiros_vesting.out
  obtain ⟨v, hv, hlivre⟩ := (Option.any_eq_true _ _).mp hsaldo
  obtain ⟨hlivre, hcliff⟩ := of_decide_eq_true hlivre
  have htx : ((atoResgate (2 ^ 64 - 1)).acao ambienteIdeal).txDe .vestingClaim =
      some ((atoResgate (2 ^ 64 - 1)).assinada ambienteIdeal) := rfl
  have hcredito := creditoDe_resgate htx hv
  refine ⟨_, _, _, _, v, execucao_vesting hensaia, List.mem_cons_self, htx, hv, ?_, ?_, hcliff⟩
  · rw [hcredito]
    exact hlivre
  · decide

/-- Claimed at its fifteenth block of twenty, the schedule has paid three quarters. -/
theorem tres_quartos_pagos : ∃ depois s, ∃ v : Vesting,
    Execucao ambienteIdeal estadoIa (depois ++ [(estadoIa, (atoVesting 1).acao ambienteIdeal)]) s ∧
      v.total = 100 ∧ creditado idDoVesting depois = 75 ∧
      s.vesting.get? idDoVesting = some { v with claimed := 75 } := by
  obtain ⟨-, -, hensaia, hid, hids⟩ := roteiros_vesting.out
  have hexec : Execucao ambienteIdeal estadoIa
      ([((atoVesting 1).depois ambienteIdeal estadoIa, (atoResgate 16).acao ambienteIdeal)] ++
        (estadoIa, (atoVesting 1).acao ambienteIdeal) :: []) _ := execucao_vesting hensaia
  obtain ⟨v, hnovo, hpedido, -, -, -, -, hdia, hpaga⟩ := vesting_paga_o_vencido hexec
    hids (List.pairwise_pair.mpr (by decide)) rfl hid
  have htotal : v.total = 100 := (Except.ok.inj hpedido.total).symm
  have hduracao : v.duration = 20 := (Except.ok.inj hpedido.duracao).symm
  have hcliff := hpedido.cliff
  rw [hduracao] at hcliff
  have hcliff : v.cliff = 10 := (Except.ok.inj hcliff).symm
  have hstart : v.start = 1 := hnovo.start
  have htudo := (hpaga [] _ [] rfl _ rfl rfl).tudo
  have hvencido : v.vencido 16 = 75 := by
    unfold Vesting.vencido
    rw [htotal, hduracao, hcliff, hstart]
    decide
  have hregistro := hdia.registro
  rw [htudo.trans hvencido, if_neg (by rw [htotal]; decide)] at hregistro
  exact ⟨_, _, v, hexec, htotal, htudo.trans hvencido, hregistro⟩

end Eav7
