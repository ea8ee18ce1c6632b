import Mathlib.Data.List.Basic
import Mathlib.Tactic.IntervalCases
import Eav7.Block

/-!
# The canonical text of a map fixes its fields

The canonical text of a JSON value is self-delimiting: reading it character by
character returns to the nesting where it began and meets no comma there. So the
fields of a text can be told apart, and two blocks with one payload have the same
height, producer, keys and account.
-/

namespace Eav7.Carga

/-- Where a reader of JSON text stands. -/
inductive Modo where
  | fora
  | texto
  | escape
  deriving DecidableEq

/-- One character read at a nesting depth. -/
def passo : ℕ × Modo → Char → ℕ × Modo
  | (d, .fora), c =>
    if c = '"' then (d, .texto)
    else if c = '\x7b' ∨ c = '[' then (d + 1, .fora)
    else if c = '\x7d' ∨ c = ']' then (d - 1, .fora)
    else (d, .fora)
  | (d, .texto), c => if c = '"' then (d, .fora) else if c = '\\' then (d, .escape) else (d, .texto)
  | (d, .escape), _ => (d, .texto)

/-- What follows the first comma outside every bracket and string. -/
def depois (st : ℕ × Modo) : List Char → List Char
  | [] => []
  | c :: cs => if st = (0, .fora) ∧ c = ',' then cs else depois (passo st c) cs

/-- Reading the text changes neither the depth nor the mode, and meets no comma
at depth zero. -/
def Transparente (st : ℕ × Modo) (cs : List Char) : Prop :=
  ∀ r, depois st (cs ++ r) = depois st r

theorem Transparente.nil (st : ℕ × Modo) : Transparente st [] := fun _ => rfl

theorem Transparente.append {st : ℕ × Modo} {as bs : List Char} (ha : Transparente st as)
    (hb : Transparente st bs) : Transparente st (as ++ bs) := by
  intro r
  rw [List.append_assoc, ha, hb]

theorem Transparente.flatMap {α : Type} {st : ℕ × Modo} {l : List α} {f : α → List Char}
    (h : ∀ a ∈ l, Transparente st (f a)) : Transparente st (l.flatMap f) := by
  induction l with
  | nil => exact Transparente.nil st
  | cons a l ih =>
    rw [List.flatMap_cons]
    exact (h a List.mem_cons_self).append (ih fun b hb => h b (List.mem_cons_of_mem a hb))

/-- A character that means nothing outside strings. -/
def Comum (c : Char) : Prop :=
  c ≠ '"' ∧ c ≠ '\x7b' ∧ c ≠ '[' ∧ c ≠ '\x7d' ∧ c ≠ ']' ∧ c ≠ ','

instance : DecidablePred Comum := fun c => by
  unfold Comum
  infer_instance

theorem transparente_comuns {cs : List Char} (h : ∀ c ∈ cs, Comum c) (d : ℕ) :
    Transparente (d, .fora) cs := by
  induction cs with
  | nil => exact Transparente.nil _
  | cons c cs ih =>
    obtain ⟨h1, h2, h3, h4, h5, h6⟩ := h c List.mem_cons_self
    intro r
    rw [List.cons_append, depois, if_neg (fun hc => h6 hc.2)]
    have hp : passo (d, .fora) c = (d, .fora) := by
      simp [passo, h1, h2, h3, h4, h5]
    rw [hp]
    exact ih (fun c' hc' => h c' (List.mem_cons_of_mem c hc')) r

/-- Inside a string, a character other than the quote and the backslash. -/
theorem transparente_texto {c : Char} (hq : c ≠ '"') (hb : c ≠ '\\') (d : ℕ) :
    Transparente (d, .texto) [c] := by
  intro r
  simp [depois, passo, hq, hb]

theorem transparente_escape (c : Char) (d : ℕ) : Transparente (d, .texto) ['\\', c] := by
  intro r
  simp [depois, passo]

theorem hexDigito_texto {n : ℕ} (h : n < 16) : hexDigito n ≠ '"' ∧ hexDigito n ≠ '\\' := by
  interval_cases n <;> decide

theorem transparente_escreveChar (c : Char) (d : ℕ) :
    Transparente (d, .texto) (escreveChar c) := by
  unfold escreveChar
  split_ifs with h1 h2 h3 h4 h5 h6 h7 h8
  · exact transparente_escape _ d
  · exact transparente_escape _ d
  · exact transparente_escape _ d
  · exact transparente_escape _ d
  · exact transparente_escape _ d
  · exact transparente_escape _ d
  · exact transparente_escape _ d
  · have ha := hexDigito_texto (n := c.toNat / 16) (by omega)
    have hb := hexDigito_texto (n := c.toNat % 16) (Nat.mod_lt _ (by omega))
    have hu : Transparente (d, .texto) ['\\', 'u'] := transparente_escape _ d
    have hz : Transparente (d, .texto) ['0'] := transparente_texto (by decide) (by decide) d
    exact hu.append (hz.append (hz.append ((transparente_texto ha.1 ha.2 d).append
      (transparente_texto hb.1 hb.2 d))))
  · exact transparente_texto h1 h2 d

theorem transparente_escreveString (s : String) (d : ℕ) :
    Transparente (d, .fora) (escreveString s) := by
  have hcorpo : Transparente (d, .texto) (s.toList.flatMap escreveChar) :=
    Transparente.flatMap fun c _ => transparente_escreveChar c d
  intro r
  have habre : depois (d, .fora) ('"' :: (s.toList.flatMap escreveChar ++ ('"' :: r))) =
      depois (d, .texto) (s.toList.flatMap escreveChar ++ ('"' :: r)) := by
    simp [depois, passo]
  have hfecha : depois (d, .texto) ('"' :: r) = depois (d, .fora) r := by
    simp [depois, passo]
  unfold escreveString
  rw [List.append_assoc, List.cons_append, List.singleton_append, habre, hcorpo, hfecha]

/-- Pieces joined by commas inside a bracket. -/
theorem transparente_intercalate {l : List (List Char)} {d : ℕ}
    (h : ∀ cs ∈ l, Transparente (d + 1, .fora) cs) :
    Transparente (d + 1, .fora) ([','].intercalate l) := by
  have hv : Transparente (d + 1, .fora) [','] := by
    intro r
    simp [depois, passo]
  unfold List.intercalate
  intro r
  induction l with
  | nil => rfl
  | cons a l ih =>
    cases l with
    | nil => simpa using h a List.mem_cons_self r
    | cons b l =>
      have ih := ih fun cs hcs => h cs (List.mem_cons_of_mem a hcs)
      rw [List.intersperse_cons_cons, List.flatten_cons, List.flatten_cons, List.append_assoc,
        List.append_assoc, h a List.mem_cons_self, hv, ih]

theorem transparente_bracket {abre fecha : Char} {cs : List Char} {d : ℕ}
    (habre : passo (d, .fora) abre = (d + 1, .fora)) (hv : abre ≠ ',')
    (hfecha : passo (d + 1, .fora) fecha = (d, .fora)) (h : Transparente (d + 1, .fora) cs) :
    Transparente (d, .fora) (abre :: cs ++ [fecha]) := by
  intro r
  have ha : depois (d, .fora) (abre :: (cs ++ (fecha :: r))) =
      depois (d + 1, .fora) (cs ++ (fecha :: r)) := by
    rw [depois, if_neg (fun hc => hv hc.2), habre]
  have hf : depois (d + 1, .fora) (fecha :: r) = depois (d, .fora) r := by
    rw [depois, if_neg (fun hc => by simp at hc), hfecha]
  rw [List.append_assoc, List.cons_append, List.singleton_append, ha, h, hf]

theorem mem_insereOrdenado {e d : String × List Char} {l : List (String × List Char)}
    (h : d ∈ insereOrdenado e l) : d = e ∨ d ∈ l := by
  induction l with
  | nil => simpa [insereOrdenado] using h
  | cons a l ih =>
    unfold insereOrdenado at h
    split_ifs at h
    · rcases List.mem_cons.mp h with rfl | h
      · exact .inr List.mem_cons_self
      · rcases ih h with h | h
        · exact .inl h
        · exact .inr (List.mem_cons_of_mem a h)
    · rcases List.mem_cons.mp h with h | h
      · exact .inl h
      · exact .inr h

theorem mem_ordenaChaves {d : String × List Char} {l : List (String × List Char)}
    (h : d ∈ ordenaChaves l) : d ∈ l := by
  induction l with
  | nil => exact h
  | cons a l ih =>
    rcases mem_insereOrdenado h with rfl | h
    · exact List.mem_cons_self
    · exact List.mem_cons_of_mem a (ih h)

theorem transparente_escreveMapa {pares : List (String × List Char)} {d : ℕ}
    (h : ∀ e ∈ pares, Transparente (d + 1, .fora) e.2) :
    Transparente (d, .fora) (escreveMapa pares) := by
  unfold escreveMapa
  refine transparente_bracket (by simp [passo]) (by decide) (by simp [passo]) ?_
  refine transparente_intercalate ?_
  intro cs hcs
  obtain ⟨e, he, rfl⟩ := List.mem_map.mp hcs
  have hdois : Transparente (d + 1, .fora) [':'] := by
    intro r
    simp [depois, passo]
  have hvalor := h e (mem_ordenaChaves he)
  exact (transparente_escreveString e.1 (d + 1)).append (hdois.append hvalor)

theorem comum_of_isDigit {c : Char} (h : c.isDigit = true) : Comum c := by
  refine ⟨?_, ?_, ?_, ?_, ?_, ?_⟩ <;> rintro rfl <;> exact absurd h (by decide)

theorem nat_toString_toList (n : ℕ) : (toString n).toList = Nat.toDigits 10 n := by
  change (Nat.repr n).toList = _
  unfold Nat.repr
  exact String.toList_ofList

theorem head_toDigits {n : ℕ} (h : 0 < n) : (Nat.toDigits 10 n).head? ≠ some '0' := by
  induction n using Nat.strong_induction_on with
  | _ n ih =>
    by_cases hn : n < 10
    · rw [Nat.toDigits_of_lt_base hn]
      interval_cases n <;> decide
    · rw [Nat.toDigits_of_base_le (by decide) (not_lt.mp hn),
        List.head?_append_of_ne_nil _ Nat.toDigits_ne_nil]
      exact ih (n / 10) (Nat.div_lt_self h (by decide)) (Nat.div_pos (not_lt.mp hn) (by decide))

theorem faixa_of_mem {n : ℕ} {c : Char} (h : c ∈ Nat.toDigits 10 n) : '0' ≤ c ∧ c ≤ '9' := by
  have hdigito := Nat.isDigit_of_mem_toDigits (by decide) (by decide) h
  simpa [Char.isDigit, Char.le_def] using hdigito

theorem isDigit_of_mem_toString {n : ℕ} {c : Char} (h : c ∈ (toString n).toList) :
    c.isDigit = true := by
  rw [nat_toString_toList] at h
  exact Nat.isDigit_of_mem_toDigits (by omega) (by omega) h

theorem comum_of_mem_toString_int {n : ℤ} {c : Char} (h : c ∈ (toString n).toList) : Comum c := by
  cases n with
  | ofNat n => exact comum_of_isDigit (isDigit_of_mem_toString h)
  | negSucc n =>
    have hneg : (toString (Int.negSucc n)).toList = '-' :: (toString (n + 1)).toList := by
      change ("-" ++ toString (n + 1)).toList = _
      rw [String.toList_append]
      rfl
    rw [hneg] at h
    rcases List.mem_cons.mp h with rfl | h
    · decide
    · exact comum_of_isDigit (isDigit_of_mem_toString h)

mutual

/-- The text of a value is self-delimiting at every depth. -/
theorem transparente_escreveValor : ∀ (v : JsonValue) (d : ℕ),
    Transparente (d, .fora) (escreveValor v)
  | .null, d => transparente_comuns (by rw [escreveValor]; simp [Comum]) d
  | .bool true, d => transparente_comuns (by rw [escreveValor]; simp [Comum]) d
  | .bool false, d => transparente_comuns (by rw [escreveValor]; simp [Comum]) d
  | .int n, d => transparente_comuns (fun _ hc => comum_of_mem_toString_int hc) d
  | .str s, d => transparente_escreveString s d
  | .list itens, d => by
    rw [escreveValor]
    unfold escreveLista
    refine transparente_bracket (by simp [passo]) (by decide) (by simp [passo]) ?_
    exact transparente_intercalate fun cs hcs => transparente_escreveItens itens (d + 1) cs hcs
  | .map pares, d => by
    rw [escreveValor]
    exact transparente_escreveMapa fun e he => transparente_escrevePares pares (d + 1) e he

theorem transparente_escreveItens : ∀ (vs : List JsonValue) (d : ℕ),
    ∀ cs ∈ escreveItens vs, Transparente (d, .fora) cs
  | [], _, _, h => by simp [escreveItens] at h
  | v :: vs, d, cs, h => by
    rw [escreveItens] at h
    rcases List.mem_cons.mp h with rfl | h
    · exact transparente_escreveValor v d
    · exact transparente_escreveItens vs d cs h

theorem transparente_escrevePares : ∀ (ps : List (String × JsonValue)) (d : ℕ),
    ∀ e ∈ escrevePares ps, Transparente (d, .fora) e.2
  | [], _, _, h => by simp [escrevePares] at h
  | p :: ps, d, e, h => by
    rw [escrevePares] at h
    rcases List.mem_cons.mp h with rfl | h
    · exact transparente_escreveValor p.2 d
    · exact transparente_escrevePares ps d e h

end

/-! ## Reading strings back -/

/-- The character that an escape letter stands for. -/
def desescapa (c : Char) : Char :=
  if c = 'b' then Char.ofNat 0x08
  else if c = 'f' then Char.ofNat 0x0c
  else if c = 'n' then '\n'
  else if c = 'r' then '\r'
  else if c = 't' then '\t'
  else c

def valorHex (c : Char) : ℕ := if c.toNat < 58 then c.toNat - 48 else c.toNat - 87

/-- The first character of an escaped text. -/
def leChar : List Char → Char
  | '\\' :: 'u' :: _ :: _ :: a :: b :: _ => Char.ofNat (16 * valorHex a + valorHex b)
  | '\\' :: e :: _ => desescapa e
  | c :: _ => c
  | [] => ' '

theorem eq_ofNat {c : Char} {n : ℕ} (h : c.toNat = n) : c = Char.ofNat n := by
  rw [← h, Char.ofNat_toNat]

theorem leChar_escreveChar (c : Char) (r : List Char) : leChar (escreveChar c ++ r) = c := by
  unfold escreveChar
  split_ifs with h1 h2 h3 h4 h5 h6 h7 h8
  · exact h1.symm
  · exact h2.symm
  · exact (eq_ofNat h3).symm
  · exact (eq_ofNat h4).symm
  · exact h5.symm
  · exact h6.symm
  · exact h7.symm
  · have hc := eq_ofNat (c := c) rfl
    generalize c.toNat = n at h8 hc
    subst hc
    interval_cases n <;> rfl
  · rw [List.singleton_append]
    unfold leChar
    split
    · next h => exact absurd (List.cons.inj h).1 h2
    · next h => exact absurd (List.cons.inj h).1 h2
    · next h => exact (List.cons.inj h).1.symm
    · next h => cases h

theorem escreveChar_ne_aspas (c : Char) (r r' : List Char) : escreveChar c ++ r ≠ '"' :: r' := by
  intro h
  have hc := leChar_escreveChar c r
  rw [h] at hc
  obtain rfl : '"' = c := hc
  cases h

/-- Two escaped texts closed by a quote are the same text. -/
theorem escapado_inj {s s' r r' : List Char}
    (h : s.flatMap escreveChar ++ '"' :: r = s'.flatMap escreveChar ++ '"' :: r') :
    s = s' ∧ r = r' := by
  induction s generalizing s' with
  | nil =>
    cases s' with
    | nil => exact ⟨rfl, (List.cons.inj h).2⟩
    | cons c' s' =>
      rw [List.flatMap_cons, List.append_assoc] at h
      exact absurd h.symm (escreveChar_ne_aspas c' _ _)
  | cons c s ih =>
    cases s' with
    | nil =>
      rw [List.flatMap_cons, List.append_assoc] at h
      exact absurd h (escreveChar_ne_aspas c _ _)
    | cons c' s' =>
      rw [List.flatMap_cons, List.flatMap_cons, List.append_assoc, List.append_assoc] at h
      have hc := congrArg leChar h
      rw [leChar_escreveChar, leChar_escreveChar] at hc
      subst hc
      obtain ⟨rfl, rfl⟩ := ih (List.append_cancel_left h)
      exact ⟨rfl, rfl⟩

theorem escreveString_inj {s s' : String} {r r' : List Char}
    (h : escreveString s ++ r = escreveString s' ++ r') : s = s' ∧ r = r' := by
  unfold escreveString at h
  rw [List.append_assoc, List.append_assoc] at h
  obtain ⟨hs, hr⟩ := escapado_inj (List.cons.inj h).2
  exact ⟨String.toList_inj.mp hs, hr⟩

/-! ## Reading maps back -/

/-- A piece that reads as a whole: not empty, and no comma outside its brackets. -/
def Peca (cs : List Char) : Prop := cs ≠ [] ∧ Transparente (0, .fora) cs

theorem depois_peca {cs : List Char} (h : Peca cs) (r : List Char) :
    depois (0, .fora) (cs ++ ',' :: r) = r := by
  rw [h.2]
  simp [depois]

theorem intercalate_singleton (a : List Char) : [','].intercalate [a] = a := by
  simp [List.intercalate]

theorem intercalate_cons_cons (a b : List Char) (l : List (List Char)) :
    [','].intercalate (a :: b :: l) = a ++ ',' :: [','].intercalate (b :: l) := by
  simp [List.intercalate, List.intersperse_cons_cons]

theorem intercalate_ne_nil {a : List Char} (ha : Peca a) (l : List (List Char)) :
    [','].intercalate (a :: l) ≠ [] := by
  cases l with
  | nil =>
    rw [intercalate_singleton]
    exact ha.1
  | cons b l =>
    rw [intercalate_cons_cons]
    simp

/-- The pieces of a text are told apart by its commas. -/
theorem intercalate_inj {l l' : List (List Char)} (hl : ∀ cs ∈ l, Peca cs)
    (hl' : ∀ cs ∈ l', Peca cs) (h : [','].intercalate l = [','].intercalate l') : l = l' := by
  induction l generalizing l' with
  | nil =>
    cases l' with
    | nil => rfl
    | cons b l' => exact absurd h.symm (intercalate_ne_nil (hl' b List.mem_cons_self) l')
  | cons a l ih =>
    have ha := hl a List.mem_cons_self
    cases l' with
    | nil => exact absurd h (intercalate_ne_nil ha l)
    | cons b l' =>
      have hb := hl' b List.mem_cons_self
      have hresto := congrArg (depois (0, .fora)) h
      -- A piece that ends the text leaves nothing after its first comma.
      have hunica : ∀ {x : List Char}, Peca x → depois (0, .fora) ([','].intercalate [x]) = [] := by
        intro x hx
        have hfim : depois (0, .fora) (x ++ []) = [] := hx.2 []
        rwa [List.append_nil, ← intercalate_singleton x] at hfim
      cases l with
      | nil =>
        cases l' with
        | nil =>
          rw [intercalate_singleton, intercalate_singleton] at h
          rw [h]
        | cons b' l' =>
          rw [hunica ha, intercalate_cons_cons, depois_peca hb] at hresto
          exact absurd hresto.symm
            (intercalate_ne_nil (hl' b' (List.mem_cons_of_mem b List.mem_cons_self)) l')
      | cons a' l =>
        cases l' with
        | nil =>
          rw [hunica hb, intercalate_cons_cons, depois_peca ha] at hresto
          exact absurd hresto
            (intercalate_ne_nil (hl a' (List.mem_cons_of_mem a List.mem_cons_self)) l)
        | cons b' l' =>
          rw [intercalate_cons_cons, intercalate_cons_cons] at h hresto
          rw [depois_peca ha, depois_peca hb] at hresto
          rw [hresto] at h
          obtain rfl := List.append_cancel_right h
          rw [ih (fun cs hcs => hl cs (List.mem_cons_of_mem a hcs))
            (fun cs hcs => hl' cs (List.mem_cons_of_mem a hcs)) hresto]

theorem peca_campo {e : String × List Char} (h : Transparente (0, .fora) e.2) :
    Peca (escreveString e.1 ++ ':' :: e.2) := by
  have hdois : Transparente (0, .fora) [':'] := by
    intro r
    simp [depois, passo]
  refine ⟨by simp [escreveString], ?_⟩
  exact (transparente_escreveString e.1 0).append (hdois.append h)

/-- The sorted fields of a map are told apart in its text. -/
theorem escreveMapa_inj {ps qs : List (String × List Char)}
    (hps : ∀ e ∈ ps, Transparente (0, .fora) e.2) (hqs : ∀ e ∈ qs, Transparente (0, .fora) e.2)
    (h : escreveMapa ps = escreveMapa qs) : ordenaChaves ps = ordenaChaves qs := by
  have hpecas : ∀ {l : List (String × List Char)}, (∀ e ∈ l, Transparente (0, .fora) e.2) →
      ∀ cs ∈ (ordenaChaves l).map (fun e => escreveString e.1 ++ ':' :: e.2), Peca cs := by
    intro l hl cs hcs
    obtain ⟨e, he, rfl⟩ := List.mem_map.mp hcs
    exact peca_campo (hl e (mem_ordenaChaves he))
  unfold escreveMapa at h
  have hcampos := intercalate_inj (hpecas hps) (hpecas hqs)
    (List.append_cancel_right (List.cons.inj h).2)
  refine (List.map_injective_iff.mpr ?_) hcampos
  intro e e' he
  obtain ⟨hk, hv⟩ := escreveString_inj he
  exact Prod.ext hk (List.cons.inj hv).2

theorem lookup_insereOrdenado {e : String × List Char} {l : List (String × List Char)}
    (h : e.1 ∉ l.map Prod.fst) (k : String) :
    (insereOrdenado e l).lookup k = (e :: l).lookup k := by
  induction l with
  | nil => rfl
  | cons d l ih =>
    unfold insereOrdenado
    split_ifs
    · rw [List.map_cons, List.mem_cons, not_or] at h
      have hne : e.1 ≠ d.1 := h.1
      rw [List.lookup_cons, ih h.2, List.lookup_cons, List.lookup_cons, List.lookup_cons]
      by_cases hk : k = d.1
      · subst hk
        have hd : (d.1 == e.1) = false := beq_eq_false_iff_ne.mpr hne.symm
        rw [hd, beq_self_eq_true]
      · rw [beq_eq_false_iff_ne.mpr hk]
    · rfl

theorem lookup_ordenaChaves {l : List (String × List Char)} (h : (l.map Prod.fst).Nodup)
    (k : String) : (ordenaChaves l).lookup k = l.lookup k := by
  induction l with
  | nil => rfl
  | cons e l ih =>
    rw [List.map_cons, List.nodup_cons] at h
    have hno : e.1 ∉ (ordenaChaves l).map Prod.fst := by
      intro hmem
      obtain ⟨d, hd, hk⟩ := List.mem_map.mp hmem
      exact h.1 (hk ▸ List.mem_map_of_mem (mem_ordenaChaves hd))
    change (insereOrdenado e (ordenaChaves l)).lookup k = _
    rw [lookup_insereOrdenado hno, List.lookup_cons, List.lookup_cons, ih h.2]

theorem escrevePares_eq_map (ps : List (String × JsonValue)) :
    escrevePares ps = ps.map fun e => (e.1, escreveValor e.2) := by
  induction ps with
  | nil => rfl
  | cons p ps ih => rw [escrevePares, ih, List.map_cons]

theorem lookup_escrevePares (ps : List (String × JsonValue)) (k : String) :
    (escrevePares ps).lookup k = (ps.lookup k).map escreveValor := by
  induction ps with
  | nil => rfl
  | cons p ps ih =>
    rw [escrevePares, List.lookup_cons, List.lookup_cons, ih]
    cases k == p.1 <;> rfl

/-- Two maps with the same text have the same texts under every key. -/
theorem campos_of_texto {ps qs : List (String × JsonValue)} (hps : (ps.map Prod.fst).Nodup)
    (hqs : (qs.map Prod.fst).Nodup) (h : escreveValor (.map ps) = escreveValor (.map qs))
    (k : String) : (ps.lookup k).map escreveValor = (qs.lookup k).map escreveValor := by
  have hchaves : ∀ ps : List (String × JsonValue),
      (escrevePares ps).map Prod.fst = ps.map Prod.fst := by
    intro ps
    rw [escrevePares_eq_map, List.map_map]
    rfl
  have hord := escreveMapa_inj (transparente_escrevePares ps 0) (transparente_escrevePares qs 0) h
  have hp := lookup_ordenaChaves ((hchaves ps).symm ▸ hps) k
  have hq := lookup_ordenaChaves ((hchaves qs).symm ▸ hqs) k
  rw [← lookup_escrevePares, ← lookup_escrevePares, ← hp, ← hq, hord]

/-! ## The payload of a block -/

theorem escreveValor_null_ne (s : String) : escreveValor .null ≠ escreveValor (.str s) := by
  intro h
  cases h

theorem escreveValor_str_inj {s s' : String} (h : escreveValor (.str s) = escreveValor (.str s')) :
    s = s' := by
  have hvazio : escreveString s ++ [] = escreveString s' ++ [] := congrArg (· ++ []) h
  exact (escreveString_inj hvazio).1

/-- A text or null, told apart by its text. -/
theorem escreveValor_opcional_inj {x y : Option String}
    (h : escreveValor (x.elim .null .str) = escreveValor (y.elim .null .str)) : x = y := by
  cases x with
  | none =>
    cases y with
    | none => rfl
    | some s => exact absurd h (escreveValor_null_ne s)
  | some s =>
    cases y with
    | none => exact absurd h.symm (escreveValor_null_ne s)
    | some s' => exact congrArg some (escreveValor_str_inj h)

theorem natural_of_texto {m n : ℕ} (h : (toString m).toList = (toString n).toList) : m = n := by
  rw [nat_toString_toList, nat_toString_toList] at h
  have hvalor := congrArg (fun cs => Nat.ofDigitChars 10 cs 0) h
  simpa only [Nat.ofDigitChars_ten_toDigits] using hvalor

/-- The fields of the core. -/
def camposCore (b : Block) : List (String × JsonValue) :=
  match b.core with
  | .map pares => pares
  | _ => []

theorem camposCore_nodup (b : Block) : ((camposCore b).map Prod.fst).Nodup := by
  unfold camposCore Block.core campoOpcional
  cases b.stateRoot <;> cases b.genesis <;> cases b.producerAccount <;> simp

/-- The payload fixes the text of every field. -/
theorem campo_of_payload {a b : Block} (h : a.payload = b.payload) (k : String) :
    (a.core.campo k).map escreveValor = (b.core.campo k).map escreveValor := by
  have htexto : escreveValor a.core = escreveValor b.core := by
    have := congrArg String.toList h
    unfold Block.payload canonicalJson at this
    rwa [String.toList_ofList, String.toList_ofList] at this
  exact campos_of_texto (camposCore_nodup a) (camposCore_nodup b) htexto k

/-- What the fields of the core hold. -/
theorem campo_core (b : Block) :
    b.core.campo "height" = some (.int (min b.height i64Max)) ∧
      b.core.campo "producer" = some (.str b.producer) ∧
      b.core.campo "publicKey" = some (b.publicKey.elim .null .str) ∧
      b.core.campo "pqPublicKey" = some (b.pqPublicKey.elim .null .str) ∧
      b.core.campo "producerAccount" = b.producerAccount.map .str := by
  refine ⟨rfl, rfl, rfl, rfl, ?_⟩
  unfold Block.core campoOpcional JsonValue.campo
  cases b.stateRoot <;> cases b.genesis <;> cases b.producerAccount <;> rfl

/-- Two verified blocks with the same payload have the same height. -/
theorem altura_of_payload {a b : Block} (ha : a.height ≤ maxSafeInteger)
    (hb : b.height ≤ maxSafeInteger) (h : a.payload = b.payload) : a.height = b.height := by
  have h64 : (maxSafeInteger : ℤ) ≤ i64Max := by decide
  have hcampo := campo_of_payload h "height"
  rw [(campo_core a).1, (campo_core b).1, min_eq_left (by omega), min_eq_left (by omega)] at hcampo
  exact natural_of_texto (Option.some.inj hcampo)

/-- Blocks with the same payload have the same producer, keys and account. -/
theorem autoria_of_payload {a b : Block} (h : a.payload = b.payload) :
    a.producer = b.producer ∧ a.publicKey = b.publicKey ∧ a.pqPublicKey = b.pqPublicKey ∧
      a.producerAccount = b.producerAccount := by
  obtain ⟨-, hpa, hka, hqa, hca⟩ := campo_core a
  obtain ⟨-, hpb, hkb, hqb, hcb⟩ := campo_core b
  have hprod := campo_of_payload h "producer"
  have hpk := campo_of_payload h "publicKey"
  have hpq := campo_of_payload h "pqPublicKey"
  have hconta := campo_of_payload h "producerAccount"
  rw [hpa, hpb] at hprod
  rw [hka, hkb] at hpk
  rw [hqa, hqb] at hpq
  rw [hca, hcb] at hconta
  refine ⟨escreveValor_str_inj (Option.some.inj hprod),
    escreveValor_opcional_inj (Option.some.inj hpk),
    escreveValor_opcional_inj (Option.some.inj hpq), ?_⟩
  cases ha : a.producerAccount with
  | none =>
    cases hb : b.producerAccount with
    | none => rfl
    | some y =>
      rw [ha, hb] at hconta
      cases hconta
  | some x =>
    cases hb : b.producerAccount with
    | none =>
      rw [ha, hb] at hconta
      cases hconta
    | some y =>
      rw [ha, hb] at hconta
      exact congrArg some (escreveValor_str_inj (Option.some.inj hconta))

end Eav7.Carga
