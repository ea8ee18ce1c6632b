import Eav7.Contracts
import Eav7.Eavm.Isolamento

/-!
# The journal of the world on the state

Every write of the world on the state pushes the record that undoes it, so the
world keeps the contract of journaling. Its writes only move balances between
accounts, and touch no other field of any account.
-/

namespace Eav7

open Base Eavm

namespace EavmWorld

variable {cr : Cripto} {w : EavmWorld}

/-! ## The records undo the writes -/

/-- What the journal protects: everything but itself. -/
def visao (w : EavmWorld) : EavmWorld := { w with journal := [] }

def diario : Diario EavmWorld EavmWorld :=
  diarioDoLog (fun j v => v.desfaz j) visao journal

theorem state_de_visao {s t : EavmWorld} (h : diario.ver s = diario.ver t) : s.state = t.state :=
  (congrArg EavmWorld.state (h : s.visao = t.visao) :)

theorem visao_desfaz (j : J) (w : EavmWorld) : (w.desfaz j).visao = w.visao.desfaz j := by
  cases j with
  | new a => rfl
  | xfer => rfl
  | code a antes => exact apply_ite visao _ _ _
  | stor a k antes => exact apply_ite visao _ _ _
  | non a antes => exact apply_ite visao _ _ _
  | nbal e7 antes existia =>
    cases existia with
    | false => rfl
    | true => exact apply_ite visao _ _ _

theorem visao_desfazTodos (js : List J) (w : EavmWorld) :
    (desfazTodos js w).visao = desfazer (fun j v => EavmWorld.desfaz v j) js w.visao := by
  induction js generalizing w with
  | nil => rfl
  | cons j js ih =>
    unfold desfazTodos desfazer
    rw [ih, visao_desfaz]

theorem desfeito_desfazAte {m : ℕ} (hm : m ≤ diario.prof w) :
    diario.Desfeito w m (w.desfazAte m) :=
  desfeito_do_log hm rfl (visao_desfazTodos _ w)

theorem desfazAte_length (w : EavmWorld) : w.desfazAte w.journal.length = w := by
  unfold desfazAte
  simp only [Nat.sub_self, List.take_zero, List.drop_zero]
  rfl

/-- A write with one record. -/
theorem preserva_de_registro {t : EavmWorld} {j : J} (hlog : t.journal = j :: w.journal)
    (hundo : t.visao.desfaz j = w.visao) : diario.Preserva w t :=
  @preserva_de_push _ _ _ _ _ _ _ _ [j] hlog hundo

theorem contrato_comContrato (a : String) (c : Contract) : (w.comContrato a c).contrato a = c := by
  simp [contrato, comContrato, OrdMap.getD_insert]

theorem contains_comContrato (a : String) (c : Contract) :
    (w.comContrato a c).state.contracts.contains a = true := by
  simp [comContrato, OrdMap.contains]

/-- Writing back the contract that was there leaves nothing behind. -/
theorem comContrato_volta {a : String} (h : w.state.contracts.contains a = true) (c : Contract) :
    (w.comContrato a c).comContrato a (w.contrato a) = w := by
  obtain ⟨c₀, hc₀⟩ := OrdMap.contains_iff.mp h
  have hcontrato : w.contrato a = c₀ := by simp [contrato, OrdMap.getD, hc₀]
  rw [hcontrato]
  unfold comContrato
  simp only [OrdMap.insert_insert, OrdMap.insert_eq_self hc₀]

theorem materializaCtr_preserva (w : EavmWorld) (a : String) :
    diario.Preserva w (w.materializaCtr a) := by
  unfold materializaCtr
  split_ifs with h
  · exact Diario.Preserva.refl w
  · have hnone : w.state.contracts.get? a = none :=
      OrdMap.contains_eq_false.mp (Bool.eq_false_iff.mpr h)
    refine preserva_de_registro (j := .new a) rfl ?_
    simp only [visao, anota, comContrato, desfaz, OrdMap.erase_insert hnone]

/-- An empty contract reads as an absent one. -/
theorem contrato_materializaCtr (w : EavmWorld) (a b : String) :
    (w.materializaCtr a).contrato b = w.contrato b := by
  unfold materializaCtr
  split_ifs with h
  · rfl
  · have hnone : w.state.contracts.get? a = none :=
      OrdMap.contains_eq_false.mp (Bool.eq_false_iff.mpr h)
    simp only [anota, contrato, comContrato, OrdMap.getD_insert]
    split_ifs with hb
    · rw [hb, OrdMap.getD, hnone]
      rfl
    · rfl

theorem materializaCtr_contains (w : EavmWorld) (a : String) :
    (w.materializaCtr a).state.contracts.contains a = true := by
  unfold materializaCtr
  split_ifs with h
  · exact h
  · exact contains_comContrato a _

/-- A write to a contract that is there, whose record restores it by `g`. -/
theorem escritaNoContrato_preserva {a : String} {c : Contract} {j : J} (g : Contract → Contract)
    (h : w.state.contracts.contains a = true)
    (hj : ∀ x : EavmWorld, x.state.contracts.contains a = true →
      x.desfaz j = x.comContrato a (g (x.contrato a)))
    (hg : g c = w.contrato a) : diario.Preserva w ((w.anota j).comContrato a c) := by
  refine preserva_de_registro (j := j) rfl ?_
  change (w.comContrato a c).visao.desfaz j = _
  rw [← visao_desfaz, hj _ (contains_comContrato a c), contrato_comContrato, hg,
    comContrato_volta h]

theorem storage_volta (storage : OrdMap String String) (k v : String) (apaga : Prop)
    [Decidable apaga] :
    (match storage.get? k with
      | none => (if apaga then storage.erase k else storage.insert k v).erase k
      | some v' => (if apaga then storage.erase k else storage.insert k v).insert k v') =
      storage := by
  refine OrdMap.ext_get? fun i => ?_
  cases h : storage.get? k with
  | none =>
    dsimp only
    split_ifs <;> grind
  | some v' =>
    dsimp only
    split_ifs <;> grind

theorem setStorage_preserva (w : EavmWorld) (address : Address) (key value : Word) :
    diario.Preserva w (w.setStorage address key value) := by
  refine (materializaCtr_preserva w (addrHex address)).trans ?_
  refine escritaNoContrato_preserva (fun c => { c with
    storage := match ((w.materializaCtr (addrHex address)).contrato
        (addrHex address)).storage.get? (slotKey key) with
      | none => c.storage.erase (slotKey key)
      | some v => c.storage.insert (slotKey key) v }) (materializaCtr_contains w _)
    (fun x hx => if_pos hx) ?_
  dsimp only
  rw [storage_volta]

theorem putCode_preserva (w : EavmWorld) (address : Address) (code : Bytes) :
    diario.Preserva w (w.putCode address code) := by
  refine (materializaCtr_preserva w (addrHex address)).trans ?_
  exact escritaNoContrato_preserva (fun c => { c with code := _ }) (materializaCtr_contains w _)
    (fun x hx => if_pos hx) rfl

theorem bumpNonce_preserva (w : EavmWorld) (address : Address) :
    diario.Preserva w (w.bumpNonce address).2 := by
  refine (materializaCtr_preserva w (addrHex address)).trans ?_
  exact escritaNoContrato_preserva (fun c => { c with nonce := _ }) (materializaCtr_contains w _)
    (fun x hx => if_pos hx) rfl

/-! ## Moving value -/

/-- A balance that moved, up or down, and stayed in range. -/
theorem addBalance_inv {a : Address} {valor : Amount} {debito : Bool} {t : EavmWorld}
    (h : w.addBalance cr a valor debito = some t) : ∃ novo,
      (if debito then novo + valor = w.state.balanceOf (cr.e7OfAddr a)
        else novo = w.state.balanceOf (cr.e7OfAddr a) + valor ∧ novo < u128Limit) ∧
      t = { w with
        state := w.state.comSaldo (cr.e7OfAddr a) novo
        journal := .nbal (cr.e7OfAddr a) (w.state.balanceOf (cr.e7OfAddr a))
          (w.state.accounts.contains (cr.e7OfAddr a)) :: w.journal } := by
  unfold addBalance at h
  obtain ⟨novo, hnovo, rfl⟩ := Option.map_eq_some_iff.mp h
  refine ⟨novo, ?_, rfl⟩
  cases debito with
  | true =>
    simp only [if_true] at hnovo ⊢
    split_ifs at hnovo with hv
    cases hnovo
    exact Nat.sub_add_cancel hv
  | false =>
    simp only [Bool.false_eq_true, if_false] at hnovo ⊢
    split_ifs at hnovo with hv
    cases hnovo
    exact ⟨rfl, hv⟩

theorem addBalance_preserva {a : Address} {valor : Amount} {debito : Bool} {t : EavmWorld}
    (h : w.addBalance cr a valor debito = some t) : diario.Preserva w t := by
  obtain ⟨novo, -, rfl⟩ := addBalance_inv h
  refine preserva_de_registro rfl ?_
  unfold desfaz
  cases hc : w.state.accounts.contains (cr.e7OfAddr a) with
  | false =>
    have hnone := OrdMap.contains_eq_false.mp hc
    simp [visao, State.comSaldo, State.comConta, OrdMap.erase_insert hnone]
  | true =>
    obtain ⟨acc, hacc⟩ := OrdMap.contains_iff.mp hc
    have hlido : w.state.account (cr.e7OfAddr a) = acc := by
      simp [State.account, OrdMap.getD, hacc]
    have hvolta : (w.state.comSaldo (cr.e7OfAddr a) novo).comSaldo (cr.e7OfAddr a)
        (w.state.balanceOf (cr.e7OfAddr a)) = w.state := by
      unfold State.comSaldo
      rw [State.comConta_comConta]
      unfold State.comConta State.balanceOf
      rw [hlido]
      exact congrArg (fun accounts => { w.state with accounts := accounts })
        (OrdMap.insert_eq_self hacc)
    have hdentro : (w.state.comSaldo (cr.e7OfAddr a) novo).accounts.contains (cr.e7OfAddr a) =
        true := by
      simp [State.comSaldo, State.comConta, OrdMap.contains]
    simp only [visao, if_true, hdentro, hvolta]

theorem moveValue_preserva (w : EavmWorld) (de para : Address) (value : Word)
    (kind : TransferKind) : diario.Preserva w (w.moveValue cr de para value kind).2 := by
  unfold moveValue
  by_cases h1 : w.state.balanceOf (cr.e7OfAddr de) < value.toNat
  · rw [if_pos h1]
    exact Diario.Preserva.refl w
  rw [if_neg h1]
  by_cases h2 : u128Limit ≤ value.toNat
  · rw [if_pos h2]
    exact Diario.Preserva.refl w
  · rw [if_neg h2]
    cases hd : w.addBalance cr de value.toNat true with
    | none =>
      dsimp only
      rw [desfazAte_length]
      exact Diario.Preserva.refl w
    | some w1 =>
      have hw1 := addBalance_preserva hd
      dsimp only
      cases hp : w1.addBalance cr para value.toNat false with
      | none => exact (Diario.restaura (marca_do_log w) hw1 (desfeito_desfazAte hw1.prof)).2
      | some w2 =>
        have hw2 := hw1.trans (addBalance_preserva hp)
        dsimp only
        split_ifs with hk
        · exact hw2
        · refine hw2.trans (preserva_de_registro (j := .xfer) rfl ?_)
          simp [visao, desfaz, anota]

/-- The world on the state keeps the contract of journaling. -/
theorem world_journaled (cr : Cripto) : Journaled (world cr) diario where
  observa {s t} h := by
    have hstate := state_de_visao h
    have hcontrato : s.contrato = t.contrato := by
      funext a
      simp only [contrato, hstate]
    refine ⟨?_, ?_, ?_, ?_, ?_⟩
    · funext a k
      simp only [world, getStorage, hcontrato]
    · funext a
      simp only [world, getCode, hcontrato]
    · funext a
      simp only [world, getBalance, hstate]
    · intro a
      have hmat : ∀ x : EavmWorld, (x.materializaCtr (addrHex a)).contrato (addrHex a) =
          x.contrato (addrHex a) := fun x => contrato_materializaCtr x _ _
      simp only [world, bumpNonce, hmat, hcontrato]
    · funext n
      simp only [world, blockHash, hcontrato]
  setStorage := setStorage_preserva
  putCode := putCode_preserva
  moveValue := moveValue_preserva
  bumpNonce := bumpNonce_preserva
  snapshot w := marca_do_log w
  revert _ _ hm := desfeito_desfazAte hm

end EavmWorld
end Eav7
