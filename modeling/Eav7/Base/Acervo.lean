import Mathlib.Order.Basic

/-!
# Numbered items

A collection hands out items under numbered keys, never twice the same one. Every item
has an owner, who may give it away, burn it, or approve somebody else; what is approved
for an item falls with the next owner.
-/

namespace Base

structure Acervo (κ π : Type*) where
  proximo : ℕ
  dono : κ → Option π
  aprovado : κ → Option π

/-- What is done to one item. -/
inductive Lance (κ π : Type*) where
  | cunha (para : π)
  | entrega (k : κ) (para : π)
  | aprova (k : κ) (quem : π)
  | queima (k : κ)

variable {κ π : Type*}

/-- The item leaves its owner, who may be given it back. -/
def Lance.Move (k : κ) : Lance κ π → Prop
  | .entrega j _ | .queima j => j = k
  | .cunha _ | .aprova _ _ => False

namespace Acervo

def novo : Acervo κ π := ⟨1, fun _ => none, fun _ => none⟩

variable (nome : ℕ → κ) (ac : Acervo κ π)

/-- Nothing is done to an item that does not exist. -/
def Cabe : Lance κ π → Prop
  | .cunha _ => True
  | .entrega k _ | .aprova k _ | .queima k => ∃ d, ac.dono k = some d

/-- The items have been numbered, and only items have approvals. -/
structure EmOrdem : Prop where
  numerado : ∀ {k d}, ac.dono k = some d → ∃ n < ac.proximo, k = nome n
  respaldo : ∀ {k quem}, ac.aprovado k = some quem → ∃ d, ac.dono k = some d

section

variable {nome ac}

theorem emOrdem_novo : (novo : Acervo κ π).EmOrdem nome := by
  constructor
  · intro k d h
    cases h
  · intro k quem h
    cases h

/-- The next key is free. -/
theorem EmOrdem.livre (h : ac.EmOrdem nome) (hnome : Function.Injective nome) :
    ac.dono (nome ac.proximo) = none := by
  cases hd : ac.dono (nome ac.proximo) with
  | none => rfl
  | some d =>
    obtain ⟨n, hn, heq⟩ := h.numerado hd
    exact absurd (hnome heq) (Nat.ne_of_gt hn)

end

variable [DecidableEq κ]

def aplica : Lance κ π → Acervo κ π
  | .cunha para =>
    { ac with
      proximo := ac.proximo + 1
      dono := Function.update ac.dono (nome ac.proximo) (some para) }
  | .entrega k para =>
    { ac with
      dono := Function.update ac.dono k (some para)
      aprovado := Function.update ac.aprovado k none }
  | .aprova k quem => { ac with aprovado := Function.update ac.aprovado k (some quem) }
  | .queima k =>
    { ac with
      dono := Function.update ac.dono k none
      aprovado := Function.update ac.aprovado k none }

variable {nome ac} {l : Lance κ π} {k : κ} {quem : π}

theorem proximo_le_aplica (l : Lance κ π) : ac.proximo ≤ (ac.aplica nome l).proximo := by
  cases l with
  | cunha => exact Nat.le_succ _
  | _ => exact Nat.le_refl _

/-- An approval was just given, or it was there and the item did not move. -/
theorem aprovado_aplica (h : (ac.aplica nome l).aprovado k = some quem) :
    l = .aprova k quem ∨ (ac.aprovado k = some quem ∧ ¬ l.Move k) := by
  cases l with
  | cunha => exact .inr ⟨h, id⟩
  | entrega j para =>
    change Function.update ac.aprovado j none k = some quem at h
    rw [Function.update_apply] at h
    split_ifs at h with hj
    exact .inr ⟨h, fun hmove => hj hmove.symm⟩
  | aprova j para =>
    change Function.update ac.aprovado j (some para) k = some quem at h
    rw [Function.update_apply] at h
    split_ifs at h with hj
    · cases h
      exact .inl (congrArg (Lance.aprova · quem) hj.symm)
    · exact .inr ⟨h, id⟩
  | queima j =>
    change Function.update ac.aprovado j none k = some quem at h
    rw [Function.update_apply] at h
    split_ifs at h with hj
    exact .inr ⟨h, fun hmove => hj hmove.symm⟩

/-- The owner of an item that does not move is the same, unless the item is new. -/
theorem dono_aplica (hmove : ¬ l.Move k) (hk : k ≠ nome ac.proximo) :
    (ac.aplica nome l).dono k = ac.dono k := by
  cases l with
  | cunha => exact Function.update_of_ne hk _ _
  | entrega j => exact Function.update_of_ne (fun hj => hmove hj.symm) _ _
  | aprova => rfl
  | queima j => exact Function.update_of_ne (fun hj => hmove hj.symm) _ _

/-- An item with an owner after a move had one before, or it was just minted. -/
theorem dono_of_aplica {d : π} (hcabe : ac.Cabe l) (h : (ac.aplica nome l).dono k = some d) :
    (∃ d, ac.dono k = some d) ∨ ((∃ para, l = .cunha para) ∧ k = nome ac.proximo) := by
  by_cases hmove : l.Move k
  · cases l with
    | cunha => cases hmove
    | aprova => cases hmove
    | entrega => exact .inl (hmove ▸ hcabe)
    | queima => exact .inl (hmove ▸ hcabe)
  · cases l with
    | cunha para =>
      by_cases hk : k = nome ac.proximo
      · exact .inr ⟨⟨para, rfl⟩, hk⟩
      · exact .inl ⟨d, (Function.update_of_ne hk _ _).symm.trans h⟩
    | entrega j => exact .inl ⟨d, (Function.update_of_ne (fun hj => hmove hj.symm) _ _).symm.trans h⟩
    | aprova => exact .inl ⟨d, h⟩
    | queima j => exact .inl ⟨d, (Function.update_of_ne (fun hj => hmove hj.symm) _ _).symm.trans h⟩

/-- An item that does not move keeps an owner. -/
theorem dono_isSome (hmove : ¬ l.Move k) (h : ∃ d, ac.dono k = some d) :
    ∃ d, (ac.aplica nome l).dono k = some d := by
  obtain ⟨d, hd⟩ := h
  cases l with
  | cunha para =>
    by_cases hk : k = nome ac.proximo
    · exact ⟨para, hk ▸ Function.update_self _ _ _⟩
    · exact ⟨d, (Function.update_of_ne hk _ _).trans hd⟩
  | entrega j para => exact ⟨d, (Function.update_of_ne (fun hj => hmove hj.symm) _ _).trans hd⟩
  | aprova => exact ⟨d, hd⟩
  | queima j => exact ⟨d, (Function.update_of_ne (fun hj => hmove hj.symm) _ _).trans hd⟩

theorem EmOrdem.aplica (h : ac.EmOrdem nome) (hcabe : ac.Cabe l) :
    (ac.aplica nome l).EmOrdem nome := by
  constructor
  case numerado =>
    intro k d hd
    obtain ⟨d, hd⟩ | ⟨⟨para, rfl⟩, rfl⟩ := dono_of_aplica hcabe hd
    · obtain ⟨n, hn, rfl⟩ := h.numerado hd
      exact ⟨n, Nat.lt_of_lt_of_le hn (proximo_le_aplica l), rfl⟩
    · exact ⟨ac.proximo, Nat.lt_succ_self _, rfl⟩
  case respaldo =>
    intro k quem hquem
    obtain rfl | ⟨hquem, hmove⟩ := aprovado_aplica hquem
    · exact hcabe
    · exact dono_isSome hmove (h.respaldo hquem)

end Acervo
end Base
