import Mathlib.Data.String.Basic

/-!
# Comparing texts byte by byte

The library decides the order of two texts on their characters, which it decodes first. An ASCII
character is its byte, so the order is decided here on the bytes as far as the first difference,
and on the characters only when a byte before it is not ASCII.
-/

namespace Base

/-! ## One character -/

theorem utf8EncodeChar_ascii {c : Char} (h : c.toNat < 128) :
    String.utf8EncodeChar c = [UInt8.ofNat c.toNat] :=
  if_pos (Nat.le_of_lt_succ h)

theorem toNat_byte {n : ℕ} (h : n < 128) : (UInt8.ofNat n).toNat = n :=
  UInt8.toNat_ofNat'.trans (Nat.mod_eq_of_lt (h.trans (by decide)))

/-- The first byte of a longer character is not ASCII. -/
theorem utf8EncodeChar_longo {c : Char} (h : ¬ c.toNat < 128) :
    ∃ b bs, String.utf8EncodeChar c = b :: bs ∧ ¬ b.toNat < 128 := by
  have hnao : ¬ c.val.toNat ≤ 0x7f := fun hle => h (Nat.lt_succ_of_le hle)
  unfold String.utf8EncodeChar
  rw [if_neg hnao]
  split_ifs <;> refine ⟨_, _, rfl, ?_⟩ <;> rw [UInt8.toNat_ofNat'] <;> omega

/-- A character begins with a byte that is ASCII exactly when the character is. -/
theorem utf8EncodeChar_cabeca (c : Char) :
    ∃ b bs, String.utf8EncodeChar c = b :: bs ∧ (b.toNat < 128 ↔ c.toNat < 128) := by
  by_cases h : c.toNat < 128
  · exact ⟨_, _, utf8EncodeChar_ascii h, by rw [toNat_byte h]⟩
  · obtain ⟨b, bs, hc, hb⟩ := utf8EncodeChar_longo h
    exact ⟨b, bs, hc, iff_of_false hb h⟩

/-! ## Two texts -/

/-- Whether the first text comes before the second one; `none` at a byte that is not ASCII. -/
def antecede : List UInt8 → List UInt8 → Option Bool
  | [], [] => some false
  | [], _ :: _ => some true
  | _ :: _, [] => some false
  | a :: as, b :: bs =>
    bif Nat.blt a.toNat 128 && Nat.blt b.toNat 128 then
      bif Nat.beq a.toNat b.toNat then antecede as bs else some (Nat.blt a.toNat b.toNat)
    else none

theorem antecede_cons (a b : UInt8) (as bs : List UInt8) : antecede (a :: as) (b :: bs) =
    if a.toNat < 128 ∧ b.toNat < 128 then
      if a.toNat = b.toNat then antecede as bs else some (a.toNat < b.toNat)
    else none := by
  have hblt : ∀ m n : ℕ, Nat.blt m n = decide (m < n) := fun m n =>
    Bool.eq_iff_iff.mpr (by rw [Nat.blt_eq, decide_eq_true_iff])
  have hbeq : ∀ m n : ℕ, Nat.beq m n = decide (m = n) := fun m n =>
    Bool.eq_iff_iff.mpr (by rw [Nat.beq_eq, decide_eq_true_iff])
  simp only [antecede, hblt, hbeq, cond_eq_ite, Bool.and_eq_true, decide_eq_true_eq]

theorem antecede_ascii {c d : Char} (hc : c.toNat < 128) (hd : d.toNat < 128) (as bs : List UInt8) :
    antecede (UInt8.ofNat c.toNat :: as) (UInt8.ofNat d.toNat :: bs) =
      if c.toNat = d.toNat then antecede as bs else some (c.toNat < d.toNat) := by
  rw [antecede_cons, toNat_byte hc, toNat_byte hd, if_pos ⟨hc, hd⟩]

/-- On the bytes of two texts, the answer is the order of their units, for any way to write the
characters in units that leaves ASCII as it is. -/
theorem antecede_flatMap {f : Char → List ℕ} (hascii : ∀ c, c.toNat < 128 → f c = [c.toNat])
    (hnil : ∀ c, f c ≠ []) {cs ds : List Char} {r : Bool}
    (h : antecede (cs.flatMap String.utf8EncodeChar) (ds.flatMap String.utf8EncodeChar) = some r) :
    r = true ↔ cs.flatMap f < ds.flatMap f := by
  induction cs generalizing ds with
  | nil =>
    cases ds with
    | nil =>
      cases h
      exact iff_of_false Bool.false_ne_true (List.not_lt_nil _)
    | cons d ds =>
      obtain ⟨b, bs, hd, -⟩ := utf8EncodeChar_cabeca d
      obtain ⟨u, us, hu⟩ := List.exists_cons_of_ne_nil (hnil d)
      rw [List.flatMap_nil, List.flatMap_cons, hd] at h
      cases h
      rw [List.flatMap_cons, hu]
      exact iff_of_true rfl (List.nil_lt_cons _ _)
  | cons c cs ih =>
    cases ds with
    | nil =>
      obtain ⟨a, as, hc, -⟩ := utf8EncodeChar_cabeca c
      rw [List.flatMap_nil, List.flatMap_cons, hc] at h
      cases h
      exact iff_of_false Bool.false_ne_true (List.not_lt_nil _)
    | cons d ds =>
      rw [List.flatMap_cons, List.flatMap_cons] at h
      by_cases hdois : c.toNat < 128 ∧ d.toNat < 128
      · rw [utf8EncodeChar_ascii hdois.1, utf8EncodeChar_ascii hdois.2, List.singleton_append,
          List.singleton_append, antecede_ascii hdois.1 hdois.2] at h
        rw [List.flatMap_cons, List.flatMap_cons, hascii c hdois.1, hascii d hdois.2,
          List.singleton_append, List.singleton_append, List.cons_lt_cons_iff]
        split_ifs at h with hcd
        · rw [ih h]
          simp [hcd]
        · cases h
          simp [hcd]
      · obtain ⟨a, as, hc, ha⟩ := utf8EncodeChar_cabeca c
        obtain ⟨b, bs, hd, hb⟩ := utf8EncodeChar_cabeca d
        rw [hc, hd, List.cons_append, List.cons_append, antecede_cons,
          if_neg (mt (And.imp ha.mp hb.mp) hdois)] at h
        cases h

theorem map_toNat_lt {cs ds : List Char} : cs.map Char.toNat < ds.map Char.toNat ↔ cs < ds := by
  induction cs generalizing ds with
  | nil => cases ds <;> simp
  | cons c cs ih =>
    cases ds with
    | nil => simp
    | cons d ds =>
      rw [List.map_cons, List.map_cons, List.cons_lt_cons_iff, List.cons_lt_cons_iff, ih,
        Char.toNat_inj]
      exact Iff.rfl

theorem bytes_eq (s : String) :
    s.toByteArray.data.toList = s.toList.flatMap String.utf8EncodeChar := by
  have h : (String.ofList s.toList).toByteArray.data.toList =
      s.toList.flatMap String.utf8EncodeChar := by
    rw [String.toByteArray_ofList]
    exact List.toList_data_toByteArray
  rwa [String.ofList_toList] at h

/-- The order of two texts, read from their bytes when these tell it. -/
def precede (s t : String) : Bool :=
  (antecede s.toByteArray.data.toList t.toByteArray.data.toList).getD (decide (s < t))

theorem precede_iff (s t : String) : precede s t = true ↔ s < t := by
  unfold precede
  rw [bytes_eq, bytes_eq]
  cases h : antecede (s.toList.flatMap String.utf8EncodeChar)
      (t.toList.flatMap String.utf8EncodeChar) with
  | none => exact decide_eq_true_iff
  | some r =>
    have hordem := antecede_flatMap (f := fun c => [c.toNat]) (fun _ _ => rfl)
      (fun c => List.cons_ne_nil c.toNat []) h
    rw [← List.map_eq_flatMap, ← List.map_eq_flatMap, map_toNat_lt] at hordem
    exact hordem

/-- The order of texts, decided on the bytes. -/
instance (priority := high) ordemDosTextos : LinearOrder String where
  toPartialOrder := String.instLinearOrder.toPartialOrder
  le_total := String.instLinearOrder.le_total
  toDecidableLT s t := decidable_of_iff _ (precede_iff s t)
  toDecidableLE s t := decidable_of_iff (¬ precede t s = true) <| by
    rw [precede_iff]
    exact @not_lt _ String.instLinearOrder t s
  toDecidableEq := instDecidableEqString
  min_def s t := (String.instLinearOrder.min_def s t).trans (by congr)
  max_def s t := (String.instLinearOrder.max_def s t).trans (by congr)
  compare_eq_compareOfLessAndEq s t := by
    refine (String.instLinearOrder.compare_eq_compareOfLessAndEq s t).trans ?_
    unfold compareOfLessAndEq
    congr

/-- It is the order of the library. -/
theorem ordemDosTextos_eq : ordemDosTextos = String.instLinearOrder :=
  LinearOrder.toPartialOrder_injective rfl

end Base
