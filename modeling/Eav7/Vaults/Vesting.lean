import Mathlib.Tactic.Ring
import Eav7.Base.Reentrancia
import Eav7.Base.Solidity

/-!
# What the vaults share

The sale vault and the ecosystem vault write the same grants: nothing until the cliff ends,
then a line up to the end. The checked arithmetic of the schedule never reverts, and what is
vested grows with the height up to the total. A vault pays with a call that carries value,
which fails when the balance is short; a payment to the vault itself moves nothing.
-/

namespace Eav7.Vaults

open Base Solidity

abbrev Address := Uint 160

structure Grant where
  total : Uint 128 := 0
  released : Uint 128 := 0
  start : Uint 64 := 0
  cliff : Uint 64 := 0
  duration : Uint 64 := 0

/-- A call with value and no data. -/
structure Pagamento where
  para : Address
  value : ℕ

/-- The balance that a call with value leaves. -/
def saldoDepois (this para : Address) (balance value : ℕ) : ℕ :=
  if para = this then balance else balance - value

theorem saldoDepois_ge {this para : Address} {balance value : ℕ} :
    balance - value ≤ saldoDepois this para balance value := by
  unfold saldoDepois
  split_ifs
  · exact Nat.sub_le _ _
  · exact le_refl _

namespace Grant

/-- `vested` on a grant: cliff, then linear over what is left of the duration. -/
def vested (g : Grant) (height : Uint 256) : Except String (Uint 256) :=
  if g.total = 0 then .ok 0
  else do
    let start := cast 256 g.start
    let cliffEnd ← add start (cast 256 g.cliff)
    let fim ← add start (cast 256 g.duration)
    if height < cliffEnd then .ok 0
    else if height ≥ fim then .ok (cast 256 g.total)
    else do
      let elapsed ← Solidity.sub height cliffEnd
      let span ← Solidity.sub fim cliffEnd
      div (← mul (cast 256 g.total) elapsed) span

/-- `releasable` on a grant: what is vested and was not released. -/
def releasable (g : Grant) (height : Uint 256) : Except String (Uint 256) := do
  let v ← g.vested height
  if v ≤ cast 256 g.released then .ok 0 else Solidity.sub v (cast 256 g.released)

/-- What a grant has vested at a height. -/
def vestido (g : Grant) (height : ℕ) : ℕ :=
  if height < g.start.val + g.cliff.val then 0
  else if g.start.val + g.duration.val ≤ height then g.total.val
  else g.total.val * (height - (g.start.val + g.cliff.val)) / (g.duration.val - g.cliff.val)

/-- What is owed to the account of a grant. -/
def devido (g : Grant) : ℕ := g.total.val - g.released.val

variable {g : Grant}

theorem vestido_le_total (g : Grant) (height : ℕ) : g.vestido height ≤ g.total.val := by
  unfold vestido
  split_ifs with hcliff hfim
  · exact Nat.zero_le _
  · exact le_refl _
  · refine Nat.div_le_of_le_mul ?_
    rw [mul_comm]
    exact Nat.mul_le_mul_right _ (by omega)

/-- What is vested grows with the height. -/
theorem vestido_mono (g : Grant) {a b : ℕ} (h : a ≤ b) : g.vestido a ≤ g.vestido b := by
  by_cases hfim : g.start.val + g.duration.val ≤ b
  · by_cases hcliff : b < g.start.val + g.cliff.val
    · have ha : a < g.start.val + g.cliff.val := by omega
      unfold vestido
      rw [if_pos ha]
      exact Nat.zero_le _
    · have hb : g.vestido b = g.total.val := by
        unfold vestido
        rw [if_neg hcliff, if_pos hfim]
      rw [hb]
      exact vestido_le_total g a
  · unfold vestido
    rw [if_neg hfim, if_neg (show ¬ g.start.val + g.duration.val ≤ a by omega)]
    by_cases hcliff : a < g.start.val + g.cliff.val
    · rw [if_pos hcliff]
      exact Nat.zero_le _
    · rw [if_neg hcliff, if_neg (show ¬ b < g.start.val + g.cliff.val by omega)]
      exact Nat.div_le_div_right (Nat.mul_le_mul_left _ (by omega))

theorem vestido_of_total {height : ℕ} (h : g.total.val = 0) : g.vestido height = 0 :=
  Nat.le_zero.mp ((vestido_le_total g height).trans_eq h)

/-- The schedule never reverts, and gives what is vested. -/
theorem vested_eq_ok {height v : Uint 256} :
    g.vested height = .ok v ↔ v.val = g.vestido height.val := by
  have hstart := g.start.isLt
  have hcliff := g.cliff.isLt
  have hduration := g.duration.isLt
  have htotal := g.total.isLt
  have hs : (cast 256 g.start).val = g.start.val := cast_val_of_le (by decide) _
  have hc : (cast 256 g.cliff).val = g.cliff.val := cast_val_of_le (by decide) _
  have hd : (cast 256 g.duration).val = g.duration.val := cast_val_of_le (by decide) _
  have ht : (cast 256 g.total).val = g.total.val := cast_val_of_le (by decide) _
  suffices hok : ∃ w, g.vested height = .ok w ∧ w.val = g.vestido height.val by
    obtain ⟨w, hw, hval⟩ := hok
    rw [hw, ← hval, Except.ok.injEq, eq_comm, Fin.ext_iff]
  by_cases hzero : g.total = 0
  · refine ⟨0, if_pos hzero, ?_⟩
    rw [vestido_of_total (by rw [hzero]; rfl)]
    rfl
  · obtain ⟨cliffEnd, hcliffEnd, hcv⟩ := exists_add
      (a := cast 256 g.start) (b := cast 256 g.cliff) (by omega)
    obtain ⟨fim, hfim, hfv⟩ := exists_add
      (a := cast 256 g.start) (b := cast 256 g.duration) (by omega)
    rw [hs, hc] at hcv
    rw [hs, hd] at hfv
    suffices hramo : ∃ w, (if height < cliffEnd then .ok 0
        else if height ≥ fim then .ok (cast 256 g.total)
        else do
          let elapsed ← Solidity.sub height cliffEnd
          let span ← Solidity.sub fim cliffEnd
          div (← mul (cast 256 g.total) elapsed) span) = (.ok w : Except String (Uint 256)) ∧
        w.val = g.vestido height.val by
      obtain ⟨w, hw, hval⟩ := hramo
      exact ⟨w, (if_neg hzero).trans (Solidity.bind_eq_ok.mpr ⟨cliffEnd, hcliffEnd,
        Solidity.bind_eq_ok.mpr ⟨fim, hfim, hw⟩⟩), hval⟩
    unfold vestido
    rw [← hcv, ← hfv]
    by_cases h1 : height < cliffEnd
    · exact ⟨0, if_pos h1, (if_pos h1).symm⟩
    · rw [if_neg h1, if_neg (show ¬ height.val < cliffEnd.val from h1)]
      by_cases h2 : fim.val ≤ height.val
      · exact ⟨_, if_pos h2, ht.trans (if_pos h2).symm⟩
      · rw [if_neg (show ¬ height ≥ fim from h2), if_neg h2]
        -- The line: the product fits because the time elapsed is less than the span.
        have h1 : cliffEnd.val ≤ height.val := not_lt.mp h1
        obtain ⟨elapsed, helapsed, hev⟩ := exists_sub h1
        obtain ⟨span, hspan, hsv⟩ := exists_sub (a := fim) (b := cliffEnd) (by omega)
        have hprod : (cast 256 g.total).val * elapsed.val < 2 ^ 256 := by
          rw [ht]
          calc g.total.val * elapsed.val ≤ 2 ^ 128 * 2 ^ 64 :=
                Nat.mul_le_mul htotal.le (by omega)
            _ < 2 ^ 256 := by decide
        obtain ⟨produto, hproduto, hpv⟩ := exists_mul hprod
        obtain ⟨w, hw, hwv⟩ := exists_div (a := produto) (b := span) (by omega)
        refine ⟨w, Solidity.bind_eq_ok.mpr ⟨elapsed, helapsed, Solidity.bind_eq_ok.mpr ⟨span, hspan,
          Solidity.bind_eq_ok.mpr ⟨produto, hproduto, hw⟩⟩⟩, ?_⟩
        rw [hwv, hpv, ht, hev, hsv]
        congr 1
        omega

theorem releasable_eq_ok {height v : Uint 256} :
    g.releasable height = .ok v ↔ v.val = g.vestido height.val - g.released.val := by
  have hr : (cast 256 g.released).val = g.released.val := cast_val_of_le (by decide) _
  obtain ⟨w, hw⟩ : ∃ w, g.vested height = .ok w :=
    ⟨⟨g.vestido height.val, (vestido_le_total g _).trans_lt
      (g.total.isLt.trans_le (by decide))⟩, vested_eq_ok.mpr rfl⟩
  have hval := vested_eq_ok.mp hw
  rw [← hval, ← hr]
  unfold releasable
  rw [hw]
  change (if w ≤ cast 256 g.released then .ok 0 else Solidity.sub w (cast 256 g.released)) = Except.ok v ↔ _
  split_ifs with hle
  · have hle : w.val ≤ (cast 256 g.released).val := hle
    rw [Except.ok.injEq, Fin.ext_iff, Nat.sub_eq_zero_of_le hle, eq_comm]
    rfl
  · have hle : (cast 256 g.released).val < w.val := not_le.mp hle
    rw [Solidity.sub_eq_ok]
    omega

/-- What a release adds still fits in the field. -/
theorem releasable_cabe {height v : Uint 256} (h : g.releasable height = .ok v) :
    g.released.val + v.val < 2 ^ 128 := by
  have hv := releasable_eq_ok.mp h
  have htotal := (vestido_le_total g height.val).trans_lt g.total.isLt
  have hreleased := g.released.isLt
  omega

theorem exists_releasable (g : Grant) (height : Uint 256) : ∃ v, g.releasable height = .ok v :=
  ⟨⟨g.vestido height.val - g.released.val, ((Nat.sub_le _ _).trans
    (vestido_le_total g _)).trans_lt (g.total.isLt.trans_le (by decide))⟩, releasable_eq_ok.mpr rfl⟩

end Grant
end Eav7.Vaults
