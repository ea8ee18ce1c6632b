import Mathlib.Data.List.TakeWhile
import Eav7.Coercao
import Eav7.Base.Arredondamento

/-!
# The coercions against the language they copy

The integer literals of JavaScript as its grammar has them: a row of digits, with a sign
when it is decimal and without one after the prefix of a base. `BigInt` gives the value of
the literal; `Number` gives the double nearest to it. The coercions of the client follow the
grammar except where the parser of the standard library is more lenient than it.
-/

namespace Eav7

open Base

/-! ## The grammar -/

/-- A row of digits and its value. -/
inductive Digitos (radix : ℕ) : List Char → ℕ → Prop
  | um {c : Char} {d : ℕ} (h : digito? radix c = some d) : Digitos radix [c] d
  | mais {cs : List Char} {c : Char} {n d : ℕ} (hcs : Digitos radix cs n)
    (h : digito? radix c = some d) : Digitos radix (cs ++ [c]) (n * radix + d)

/-- Digits after an optional sign. -/
inductive ComSinal (radix : ℕ) : List Char → ℤ → Prop
  | nu {cs : List Char} {n : ℕ} (h : Digitos radix cs n) : ComSinal radix cs n
  | mais {cs : List Char} {n : ℕ} (h : Digitos radix cs n) : ComSinal radix ('+' :: cs) n
  | menos {cs : List Char} {n : ℕ} (h : Digitos radix cs n) : ComSinal radix ('-' :: cs) (-n)

/-- The prefixes that name a base. -/
def prefixos : List (List Char × ℕ) :=
  [(['0', 'x'], 16), (['0', 'X'], 16), (['0', 'b'], 2), (['0', 'B'], 2), (['0', 'o'], 8),
    (['0', 'O'], 8)]

/-- A literal of `BigInt` and its value. -/
inductive LiteralBigInt : List Char → ℤ → Prop
  | vazio : LiteralBigInt [] 0
  | decimal {cs : List Char} {n : ℤ} (h : ComSinal 10 cs n) : LiteralBigInt cs n
  | comBase {p cs : List Char} {radix n : ℕ} (hp : (p, radix) ∈ prefixos)
    (h : Digitos radix cs n) : LiteralBigInt (p ++ cs) n

/-- A text that is a literal with white space around it. -/
def Cercado (s : String) (t : List Char) : Prop :=
  ∃ antes depois, s.toList = antes ++ t ++ depois ∧ (∀ c ∈ antes, jsEspaco c = true) ∧
    ∀ c ∈ depois, jsEspaco c = true

/-- `BigInt(s)` succeeds with that value. -/
def BigIntDe (s : String) (n : ℤ) : Prop := ∃ t, Cercado s t ∧ LiteralBigInt t n

/-- `Number(s)` of a literal with a base is that finite number. -/
def NumberComBase (s : String) (q : ℚ) : Prop :=
  ∃ p radix cs m, Cercado s (p ++ cs) ∧ (p, radix) ∈ prefixos ∧ Digitos radix cs m ∧
    Binary64.ofRat (m : ℚ) = some q

/-- `Number.isSafeInteger`, and the integer. -/
def InteiroSeguro (q : ℚ) (n : ℤ) : Prop := q = n ∧ n.natAbs ≤ maxSafeInteger

/-- A text that starts with the prefix of a base once it is trimmed. -/
def ComBase (s : String) : Prop :=
  ∃ p radix cs, (p, radix) ∈ prefixos ∧ jsTrimChars s.toList = p ++ cs

/-- What the two coercions promise on a text. -/
def CoercaoFiel (s : String) : Prop :=
  (∀ n, jsBigint s = some n ↔ BigIntDe s n ∧ i128Min ≤ n ∧ n ≤ i128Max) ∧
    (ComBase s → ∀ n, jsNumberSeguro s = some n ↔ ∃ q, NumberComBase s q ∧ InteiroSeguro q n)

/-! ## Where they break it -/

/-- A signed number after the prefix of a base, in the range of the parser. -/
def SinalAposBase (s : String) : Prop :=
  ∃ p radix cs m, (p, radix) ∈ prefixos ∧ Digitos radix cs m ∧
    (jsTrimChars s.toList = p ++ '-' :: cs ∧ i128Min ≤ -(m : ℤ) ∨
      jsTrimChars s.toList = p ++ '+' :: cs ∧ (m : ℤ) ≤ i128Max)

/-- A number with the prefix of a base that is no safe integer and fits 64 bits. -/
def AcimaDoSeguro (s : String) : Prop :=
  ∃ p radix cs m, (p, radix) ∈ prefixos ∧ Digitos radix cs m ∧
    jsTrimChars s.toList = p ++ cs ∧ maxSafeInteger < m ∧ (m : ℤ) ≤ i64Max

/-! ## Prefixes and digits -/

section

variable {radix n : ℕ} {cs : List Char} {c : Char}

theorem corpoComBase_eq_some {t corpo : List Char} :
    corpoComBase t = some (radix, corpo) ↔ ∃ p, (p, radix) ∈ prefixos ∧ t = p ++ corpo := by
  constructor
  · intro h
    unfold corpoComBase at h
    split at h
    all_goals cases h
    all_goals exact ⟨[_, _], by decide, rfl⟩
  · rintro ⟨p, hp, rfl⟩
    simp only [prefixos, List.mem_cons, Prod.mk.injEq, List.not_mem_nil, or_false] at hp
    rcases hp with ⟨rfl, rfl⟩ | ⟨rfl, rfl⟩ | ⟨rfl, rfl⟩ | ⟨rfl, rfl⟩ | ⟨rfl, rfl⟩ | ⟨rfl, rfl⟩
    all_goals rfl

theorem digitos?_append (a b : List Char) (acc : ℕ) :
    digitos? radix (a ++ b) acc = (digitos? radix a acc).bind (digitos? radix b) := by
  induction a generalizing acc with
  | nil => rfl
  | cons c a ih =>
    rw [List.cons_append, digitos?, digitos?, Option.bind_assoc]
    exact congrArg _ (funext fun d => ih _)

/-- The parser of digits reads the rows of the grammar. -/
theorem natural?_eq_some : natural? radix cs = some n ↔ Digitos radix cs n := by
  constructor
  · induction cs using List.reverseRecOn generalizing n with
    | nil => exact nofun
    | append_singleton cs c ih =>
      intro h
      cases cs with
      | nil =>
        obtain ⟨d, hd, hn⟩ := Option.bind_eq_some_iff.mp h
        cases hn
        rw [Nat.zero_mul, Nat.zero_add]
        exact .um hd
      | cons x cs =>
        have hnatural : natural? radix (x :: cs ++ [c]) =
          digitos? radix (x :: cs ++ [c]) 0 := rfl
        rw [hnatural, digitos?_append] at h
        obtain ⟨m, hm, h⟩ := Option.bind_eq_some_iff.mp h
        obtain ⟨d, hd, hn⟩ := Option.bind_eq_some_iff.mp h
        cases hn
        exact .mais (ih hm) hd
  · intro h
    induction h with
    | @um c d h =>
      have hum : natural? radix [c] = (digito? radix c).bind fun d => some (0 * radix + d) := rfl
      rw [hum, h, Option.bind_some, Nat.zero_mul, Nat.zero_add]
    | @mais cs c n d hcs h ih =>
      cases cs with
      | nil => cases ih
      | cons x cs =>
        have hnatural : natural? radix (x :: cs ++ [c]) =
          digitos? radix (x :: cs ++ [c]) 0 := rfl
        rw [hnatural, digitos?_append, show digitos? radix (x :: cs) 0 = some n from ih,
          Option.bind_some]
        exact Option.bind_eq_some_iff.mpr ⟨d, h, rfl⟩

theorem Digitos.ne_nil (h : Digitos radix cs n) : cs ≠ [] := by
  cases h with
  | um => exact List.cons_ne_nil _ _
  | mais => exact List.append_ne_nil_of_right_ne_nil _ (List.cons_ne_nil _ _)

theorem Digitos.digito (h : Digitos radix cs n) (hc : c ∈ cs) : ∃ d, digito? radix c = some d := by
  induction h with
  | um h =>
    obtain rfl := List.mem_singleton.mp hc
    exact ⟨_, h⟩
  | mais _ h ih =>
    rcases List.mem_append.mp hc with hc | hc
    · exact ih hc
    · obtain rfl := List.mem_singleton.mp hc
      exact ⟨_, h⟩

/-- A digit is a decimal digit or a letter. -/
theorem alfanumerico_of_digito {d : ℕ} (h : digito? radix c = some d) :
    '0' ≤ c ∧ c ≤ '9' ∨ 'a' ≤ c ∧ c ≤ 'z' ∨ 'A' ≤ c ∧ c ≤ 'Z' := by
  obtain ⟨h, -⟩ := Option.filter_eq_some_iff.mp h
  split_ifs at h with h0 ha hA
  · exact .inl h0
  · exact .inr (.inl ha)
  · exact .inr (.inr hA)

theorem eDigito_of_digito {d : ℕ} (h : digito? 10 c = some d) : eDigito c = true := by
  obtain ⟨h, hmenor⟩ := Option.filter_eq_some_iff.mp h
  have hmenor := of_decide_eq_true hmenor
  split_ifs at h with h0 ha hA
  · exact Bool.and_eq_true_iff.mpr ⟨decide_eq_true h0.1, decide_eq_true h0.2⟩
  · cases h
    have : 97 ≤ c.toNat := ha.1
    omega
  · cases h
    have : 65 ≤ c.toNat := hA.1
    omega

theorem naoEspaco_of_alfanumerico
    (h : '0' ≤ c ∧ c ≤ '9' ∨ 'a' ≤ c ∧ c ≤ 'z' ∨ 'A' ≤ c ∧ c ≤ 'Z') : jsEspaco c = false := by
  have h : 48 ≤ c.toNat ∧ c.toNat ≤ 57 ∨ 97 ≤ c.toNat ∧ c.toNat ≤ 122 ∨
    65 ≤ c.toNat ∧ c.toNat ≤ 90 := h
  unfold jsEspaco
  rw [Bool.or_eq_false_iff, Bool.and_eq_false_iff, decide_eq_false_iff_not,
    decide_eq_false_iff_not, decide_eq_false_iff_not]
  simp only [List.mem_cons, List.not_mem_nil, or_false]
  omega

/-! ## Signs and prefixes -/

theorem inteiroRadix_eq_some {lo hi n : ℤ} :
    inteiroRadix radix lo hi cs = some n ↔ ComSinal radix cs n ∧ lo ≤ n ∧ n ≤ hi := by
  have hsem {c : Char} {ds : List Char} {m : ℕ} (hc : digito? radix c = none) :
      ¬ Digitos radix (c :: ds) m := fun h => by
    obtain ⟨d, hd⟩ := h.digito List.mem_cons_self
    rw [hc] at hd
    cases hd
  have hmenos : digito? radix '-' = none := rfl
  have hmais : digito? radix '+' = none := rfl
  have hlido {ds : List Char} {m : ℤ} : (do let a ← natural? radix ds; pure (a : ℤ)) = some m ↔
      ∃ k, Digitos radix ds k ∧ (k : ℤ) = m := by
    refine Option.bind_eq_some_iff.trans (exists_congr fun k => ?_)
    exact and_congr natural?_eq_some Option.some_inj
  unfold inteiroRadix
  rw [Option.filter_eq_some_iff, Bool.and_eq_true_iff, decide_eq_true_iff, decide_eq_true_iff]
  refine and_congr_left fun _ => ?_
  split
  · rw [Option.map_eq_some_iff]
    constructor
    · rintro ⟨m, hm, rfl⟩
      obtain ⟨k, hk, rfl⟩ := hlido.mp hm
      exact .menos hk
    · intro h
      cases h with
      | nu h => exact absurd h (hsem hmenos)
      | menos h => exact ⟨_, hlido.mpr ⟨_, h, rfl⟩, rfl⟩
  · rw [Option.map_eq_some_iff]
    constructor
    · rintro ⟨m, hm, rfl⟩
      obtain ⟨k, hk, rfl⟩ := hlido.mp hm
      exact .mais hk
    · intro h
      cases h with
      | nu h => exact absurd h (hsem hmais)
      | mais h => exact ⟨_, hlido.mpr ⟨_, h, rfl⟩, rfl⟩
  · rename_i hnmenos hnmais
    rw [Option.map_eq_some_iff]
    constructor
    · rintro ⟨m, hm, rfl⟩
      obtain ⟨k, hk, rfl⟩ := hlido.mp hm
      exact .nu hk
    · intro h
      cases h with
      | nu h => exact ⟨_, hlido.mpr ⟨_, h, rfl⟩, rfl⟩
      | mais h => exact absurd rfl (hnmais _)
      | menos h => exact absurd rfl (hnmenos _)

/-- The letter of a base is no decimal digit. -/
theorem letra_of_prefixo {p : List Char} (hp : (p, radix) ∈ prefixos) :
    ∃ x, p = ['0', x] ∧ digito? 10 x = none ∧ jsEspaco x = false := by
  simp only [prefixos, List.mem_cons, Prod.mk.injEq, List.not_mem_nil, or_false] at hp
  rcases hp with ⟨rfl, -⟩ | ⟨rfl, -⟩ | ⟨rfl, -⟩ | ⟨rfl, -⟩ | ⟨rfl, -⟩ | ⟨rfl, -⟩
  all_goals exact ⟨_, rfl, by decide, by decide⟩

/-- A decimal literal has no prefix. -/
theorem corpoComBase_decimal {t : List Char} {m : ℤ} (h : ComSinal 10 t m) :
    corpoComBase t = none := by
  cases hbase : corpoComBase t with
  | none => rfl
  | some par =>
    obtain ⟨p, hp, rfl⟩ := corpoComBase_eq_some.mp hbase
    obtain ⟨x, rfl, hx, -⟩ := letra_of_prefixo hp
    cases h with
    | nu h =>
      have hmem : x ∈ ['0', x] ++ par.2 :=
        List.mem_append_left _ (List.mem_cons_of_mem '0' (List.mem_singleton_self x))
      obtain ⟨d, hd⟩ := h.digito hmem
      rw [hx] at hd
      cases hd

/-- What the client accepts as a decimal `BigInt` is what its first check lets through. -/
theorem sinal_of_comSinal {t : List Char} {m : ℤ} (h : ComSinal 10 t m) :
    ¬ ((sinal t).2 = [] ∨ (!(sinal t).2.all eDigito) = true) := by
  have hdigitos {ds : List Char} {k : ℕ} (h : Digitos 10 ds k) :
      ¬ (ds = [] ∨ (!ds.all eDigito) = true) := by
    have htodos : ds.all eDigito = true := List.all_eq_true.mpr fun c hc => by
      obtain ⟨d, hd⟩ := h.digito hc
      exact eDigito_of_digito hd
    rw [htodos]
    exact not_or.mpr ⟨h.ne_nil, Bool.false_ne_true⟩
  cases h with
  | mais h => exact hdigitos h
  | menos h => exact hdigitos h
  | @nu t k h =>
    have hnu : (sinal t).2 = t := by
      unfold sinal
      split
      · obtain ⟨d, hd⟩ := h.digito List.mem_cons_self
        cases hd
      · obtain ⟨d, hd⟩ := h.digito List.mem_cons_self
        cases hd
      · rfl
    rw [hnu]
    exact hdigitos h

end

/-! ## White space -/

theorem dropWhile_livre {t : List Char} (depois : List Char) (ht : t ≠ [])
    (hlivre : ∀ c ∈ t, jsEspaco c = false) :
    (t ++ depois).dropWhile jsEspaco = t ++ depois := by
  obtain ⟨c, t, rfl⟩ := List.exists_cons_of_ne_nil ht
  rw [List.cons_append, List.dropWhile_cons, if_neg]
  rw [hlivre c List.mem_cons_self]
  exact Bool.false_ne_true

/-- Trimming a text takes the white space around its literal, and nothing of it. -/
theorem jsTrimChars_of_cercado {s : String} {t : List Char} (h : Cercado s t)
    (hlivre : ∀ c ∈ t, jsEspaco c = false) : jsTrimChars s.toList = t := by
  obtain ⟨antes, depois, hs, hantes, hdepois⟩ := h
  unfold jsTrimChars aparaFim
  rw [hs, List.append_assoc, List.dropWhile_append_of_pos hantes]
  by_cases ht : t = []
  · subst ht
    rw [List.nil_append, List.dropWhile_eq_nil_iff.mpr hdepois]
    rfl
  · rw [dropWhile_livre _ ht hlivre, List.reverse_append, List.dropWhile_append_of_pos
      fun c hc => hdepois c (List.mem_reverse.mp hc)]
    have hreverso := dropWhile_livre (t := t.reverse) []
      (mt List.reverse_eq_nil_iff.mp ht) fun c hc => hlivre c (List.mem_reverse.mp hc)
    rw [List.append_nil] at hreverso
    rw [hreverso, List.reverse_reverse]

/-- What trimming leaves is the text between white space. -/
theorem cercado_jsTrimChars (s : String) : Cercado s (jsTrimChars s.toList) := by
  refine ⟨s.toList.takeWhile jsEspaco,
    ((s.toList.dropWhile jsEspaco).reverse.takeWhile jsEspaco).reverse, ?_, ?_, ?_⟩
  · unfold jsTrimChars aparaFim
    rw [List.append_assoc, ← List.reverse_append, List.takeWhile_append_dropWhile,
      List.reverse_reverse, List.takeWhile_append_dropWhile]
  · exact fun c hc => List.mem_takeWhile_imp hc
  · exact fun c hc => List.mem_takeWhile_imp (List.mem_reverse.mp hc)

theorem Digitos.livre {radix n : ℕ} {cs : List Char} (h : Digitos radix cs n) {c : Char}
    (hc : c ∈ cs) : jsEspaco c = false := by
  obtain ⟨d, hd⟩ := h.digito hc
  exact naoEspaco_of_alfanumerico (alfanumerico_of_digito hd)

theorem livre_de_prefixo {radix n : ℕ} {p cs : List Char} (hp : (p, radix) ∈ prefixos)
    (h : Digitos radix cs n) : ∀ c ∈ p ++ cs, jsEspaco c = false := by
  intro c hc
  obtain ⟨x, rfl, -, hx⟩ := letra_of_prefixo hp
  rcases List.mem_append.mp hc with hc | hc
  · rcases List.mem_pair.mp hc with rfl | rfl
    · rfl
    · exact hx
  · exact h.livre hc

theorem LiteralBigInt.livre {t : List Char} {n : ℤ} (h : LiteralBigInt t n) :
    ∀ c ∈ t, jsEspaco c = false := by
  cases h with
  | vazio => exact fun c hc => absurd hc List.not_mem_nil
  | comBase hp h => exact livre_de_prefixo hp h
  | decimal h =>
    intro c hc
    cases h with
    | nu h => exact h.livre hc
    | mais h =>
      rcases List.mem_cons.mp hc with rfl | hc
      · rfl
      · exact h.livre hc
    | menos h =>
      rcases List.mem_cons.mp hc with rfl | hc
      · rfl
      · exact h.livre hc

theorem bigIntDe_iff {s : String} {n : ℤ} :
    BigIntDe s n ↔ LiteralBigInt (jsTrimChars s.toList) n := by
  constructor
  · rintro ⟨t, hs, ht⟩
    rw [jsTrimChars_of_cercado hs ht.livre]
    exact ht
  · exact fun h => ⟨_, cercado_jsTrimChars s, h⟩

theorem numberComBase_iff {s : String} {q : ℚ} :
    NumberComBase s q ↔ ∃ p radix cs m, jsTrimChars s.toList = p ++ cs ∧
      (p, radix) ∈ prefixos ∧ Digitos radix cs m ∧ Binary64.ofRat (m : ℚ) = some q := by
  constructor
  · rintro ⟨p, radix, cs, m, hs, hp, h, hq⟩
    exact ⟨p, radix, cs, m, jsTrimChars_of_cercado hs (livre_de_prefixo hp h), hp, h, hq⟩
  · rintro ⟨p, radix, cs, m, hs, hp, h, hq⟩
    exact ⟨p, radix, cs, m, hs ▸ cercado_jsTrimChars s, hp, h, hq⟩

/-! ## The two coercions -/

section

variable {s : String} {t corpo : List Char} {radix : ℕ} {n : ℤ}

theorem corpo_unico {p cs : List Char} {base : ℕ} (hbase : corpoComBase t = some (radix, corpo))
    (hp : (p, base) ∈ prefixos) (ht : t = p ++ cs) : base = radix ∧ cs = corpo := by
  have h := hbase.symm.trans (corpoComBase_eq_some.mpr ⟨p, hp, ht⟩)
  cases h
  exact ⟨rfl, rfl⟩

theorem literal_comBase (hbase : corpoComBase t = some (radix, corpo)) :
    LiteralBigInt t n ↔ ∃ m : ℕ, Digitos radix corpo m ∧ n = m := by
  constructor
  · intro h
    cases h with
    | vazio => cases hbase
    | decimal h =>
      rw [corpoComBase_decimal h] at hbase
      cases hbase
    | comBase hp h =>
      obtain ⟨rfl, rfl⟩ := corpo_unico hbase hp rfl
      exact ⟨_, h, rfl⟩
  · rintro ⟨m, hm, rfl⟩
    obtain ⟨p, hp, rfl⟩ := corpoComBase_eq_some.mp hbase
    exact .comBase hp hm

theorem literal_vazio (h : LiteralBigInt t n) (ht : t = []) : n = 0 := by
  cases h with
  | vazio => rfl
  | comBase _ h => exact absurd (List.append_eq_nil_iff.mp ht).2 h.ne_nil
  | decimal h =>
    cases h with
    | nu h => exact absurd ht h.ne_nil
    | mais => cases ht
    | menos => cases ht

theorem literal_decimal (hbase : corpoComBase t = none) (ht : t ≠ []) :
    LiteralBigInt t n ↔ ComSinal 10 t n := by
  constructor
  · intro h
    cases h with
    | vazio => exact absurd rfl ht
    | decimal h => exact h
    | comBase hp h =>
      rw [corpoComBase_eq_some.mpr ⟨_, hp, rfl⟩] at hbase
      cases hbase
  · exact .decimal

/-- Without the prefix of a base the coercion to `BigInt` follows the grammar. -/
theorem jsBigint_sem_base (hbase : corpoComBase (jsTrimChars s.toList) = none) :
    jsBigint s = some n ↔ BigIntDe s n ∧ i128Min ≤ n ∧ n ≤ i128Max := by
  rw [bigIntDe_iff]
  unfold jsBigint
  dsimp only
  rw [hbase]
  by_cases ht : jsTrimChars s.toList = []
  · rw [if_pos ht, ht, Option.some_inj]
    constructor
    · rintro rfl
      exact ⟨.vazio, by decide, by decide⟩
    · rintro ⟨h, -⟩
      exact (literal_vazio h rfl).symm
  · rw [if_neg ht, literal_decimal hbase ht]
    dsimp only
    split_ifs with hsinal
    · refine iff_of_false nofun fun h => ?_
      exact sinal_of_comSinal h.1 hsinal
    · exact inteiroRadix_eq_some

theorem jsBigint_com_base (hbase : corpoComBase (jsTrimChars s.toList) = some (radix, corpo)) :
    jsBigint s = some n ↔ ComSinal radix corpo n ∧ i128Min ≤ n ∧ n ≤ i128Max := by
  have ht : jsTrimChars s.toList ≠ [] := by
    intro ht
    rw [ht] at hbase
    cases hbase
  unfold jsBigint
  dsimp only
  rw [if_neg ht, hbase]
  exact inteiroRadix_eq_some

theorem jsNumberSeguro_com_base
    (hbase : corpoComBase (jsTrimChars s.toList) = some (radix, corpo)) :
    jsNumberSeguro s = some n ↔ ComSinal radix corpo n ∧ i64Min ≤ n ∧ n ≤ i64Max := by
  have ht : jsTrimChars s.toList ≠ [] := by
    intro ht
    rw [ht] at hbase
    cases hbase
  unfold jsNumberSeguro
  dsimp only
  rw [if_neg ht, hbase]
  exact inteiroRadix_eq_some

/-- A natural number is a safe integer as a double exactly when it is one itself. -/
theorem inteiroSeguro_iff {m : ℕ} : (∃ q, Binary64.ofRat (m : ℚ) = some q ∧ InteiroSeguro q n) ↔
    n = m ∧ (m : ℤ) ≤ maxSafeInteger := by
  constructor
  · rintro ⟨q, hq, hn, hseguro⟩
    have hmenor : m < 2 ^ 53 := by
      by_contra hmaior
      have hgrande := Binary64.two_pow_le_of_ofRat (by decide) (Nat.le_of_not_lt hmaior) hq
      rw [hn] at hgrande
      have hgrande : (2 : ℤ) ^ 53 ≤ n := by exact_mod_cast hgrande
      unfold maxSafeInteger at hseguro
      omega
    have hexato := Option.some.inj (hq.symm.trans (Binary64.ofRat_of_lt hmenor))
    have hnm : n = m := by exact_mod_cast hn.symm.trans hexato
    unfold maxSafeInteger at *
    exact ⟨hnm, by omega⟩
  · rintro ⟨rfl, hseguro⟩
    have hmenor : m < 2 ^ 53 := by
      unfold maxSafeInteger at hseguro
      omega
    exact ⟨m, Binary64.ofRat_of_lt hmenor, rfl, hseguro⟩

/-- After the prefix of a base the coercion to `BigInt` follows the grammar where there is no
sign that the parser would take. -/
theorem bigint_fiel_iff (hbase : corpoComBase (jsTrimChars s.toList) = some (radix, corpo)) :
    (∀ n, jsBigint s = some n ↔ BigIntDe s n ∧ i128Min ≤ n ∧ n ≤ i128Max) ↔
      ¬ SinalAposBase s := by
  obtain ⟨p, hp, ht⟩ := corpoComBase_eq_some.mp hbase
  have hsem {c : Char} {cs : List Char} {m : ℕ} (hc : digito? radix c = none)
      (h : Digitos radix (c :: cs) m) : False := by
    obtain ⟨d, hd⟩ := h.digito List.mem_cons_self
    rw [hc] at hd
    cases hd
  constructor
  · rintro hfiel ⟨p', base, cs, m, hp', hcs, hsinal⟩
    have hacusa {n : ℤ} (hcorpo : ∀ k, ¬ Digitos radix corpo k) (h : ComSinal radix corpo n)
        (hcabe : i128Min ≤ n ∧ n ≤ i128Max) : False := by
      obtain ⟨hn, -⟩ := (hfiel n).mp ((jsBigint_com_base hbase).mpr ⟨h, hcabe⟩)
      obtain ⟨k, hk, -⟩ := (literal_comBase hbase).mp (bigIntDe_iff.mp hn)
      exact hcorpo k hk
    rcases hsinal with ⟨ht', hcabe⟩ | ⟨ht', hcabe⟩
    · obtain ⟨rfl, rfl⟩ := corpo_unico hbase hp' ht'
      refine hacusa (fun k => hsem rfl) (.menos hcs) ⟨hcabe, ?_⟩
      unfold i128Max
      omega
    · obtain ⟨rfl, rfl⟩ := corpo_unico hbase hp' ht'
      refine hacusa (fun k => hsem rfl) (.mais hcs) ⟨?_, hcabe⟩
      unfold i128Min
      omega
  · intro hsinal n
    rw [jsBigint_com_base hbase, bigIntDe_iff, literal_comBase hbase]
    refine and_congr_left fun hcabe => ⟨fun h => ?_, ?_⟩
    · cases h with
      | nu h => exact ⟨_, h, rfl⟩
      | mais h => exact absurd ⟨p, radix, _, _, hp, h, .inr ⟨ht, hcabe.2⟩⟩ hsinal
      | menos h => exact absurd ⟨p, radix, _, _, hp, h, .inl ⟨ht, hcabe.1⟩⟩ hsinal
    · rintro ⟨m, hm, rfl⟩
      exact .nu hm

/-- After the prefix of a base the coercion to `Number` follows the grammar where there is
neither such a sign nor a number between the safe integers and the range of the parser. -/
theorem number_fiel (hbase : corpoComBase (jsTrimChars s.toList) = some (radix, corpo))
    (hsinal : ¬ SinalAposBase s) :
    (∀ n, jsNumberSeguro s = some n ↔ ∃ q, NumberComBase s q ∧ InteiroSeguro q n) ↔
      ¬ AcimaDoSeguro s := by
  obtain ⟨p, hp, ht⟩ := corpoComBase_eq_some.mp hbase
  have hnumber {n : ℤ} : (∃ q, NumberComBase s q ∧ InteiroSeguro q n) ↔
      ∃ m : ℕ, Digitos radix corpo m ∧ n = m ∧ (m : ℤ) ≤ maxSafeInteger := by
    constructor
    · rintro ⟨q, hq, hn⟩
      obtain ⟨p', base, cs, m, ht', hp', hm, hq⟩ := numberComBase_iff.mp hq
      obtain ⟨rfl, rfl⟩ := corpo_unico hbase hp' ht'
      exact ⟨m, hm, inteiroSeguro_iff.mp ⟨q, hq, hn⟩⟩
    · rintro ⟨m, hm, hn⟩
      obtain ⟨q, hq, hn⟩ := inteiroSeguro_iff.mpr hn
      exact ⟨q, numberComBase_iff.mpr ⟨p, radix, corpo, m, ht, hp, hm, hq⟩, hn⟩
  constructor
  · rintro hfiel ⟨p', base, cs, m, hp', hm, ht', hacima, hcabe⟩
    obtain ⟨rfl, rfl⟩ := corpo_unico hbase hp' ht'
    have haceito : jsNumberSeguro s = some (m : ℤ) :=
      (jsNumberSeguro_com_base hbase).mpr ⟨.nu hm, by unfold i64Min; omega, hcabe⟩
    obtain ⟨k, -, hk, hseguro⟩ := hnumber.mp ((hfiel m).mp haceito)
    omega
  · intro hacima n
    rw [jsNumberSeguro_com_base hbase, hnumber]
    have hlargo : i128Min ≤ i64Min ∧ i64Max ≤ i128Max := by decide
    constructor
    · rintro ⟨h, hmin, hmax⟩
      cases h with
      | nu h =>
        refine ⟨_, h, rfl, ?_⟩
        by_contra hmaior
        exact hacima ⟨p, radix, corpo, _, hp, h, ht, Int.lt_of_not_ge hmaior, hmax⟩
      | mais h =>
        exact absurd ⟨p, radix, _, _, hp, h, .inr ⟨ht, hmax.trans hlargo.2⟩⟩ hsinal
      | menos h =>
        exact absurd ⟨p, radix, _, _, hp, h, .inl ⟨ht, hlargo.1.trans hmin⟩⟩ hsinal
    · rintro ⟨m, hm, rfl, hseguro⟩
      unfold maxSafeInteger at hseguro
      refine ⟨.nu hm, ?_, ?_⟩
      · unfold i64Min
        omega
      · unfold i64Max
        omega

/-- The coercions follow the language on exactly the texts that are free of a sign after the
prefix of a base and of a number with a base between the safe integers and the parser's range. -/
theorem coercao_fiel_iff (s : String) :
    CoercaoFiel s ↔ ¬ SinalAposBase s ∧ ¬ AcimaDoSeguro s := by
  unfold CoercaoFiel
  cases hbase : corpoComBase (jsTrimChars s.toList) with
  | none =>
    have hsem {p cs : List Char} {radix : ℕ} (hp : (p, radix) ∈ prefixos)
        (ht : jsTrimChars s.toList = p ++ cs) : False := by
      rw [corpoComBase_eq_some.mpr ⟨p, hp, ht⟩] at hbase
      cases hbase
    refine iff_of_true ⟨fun n => jsBigint_sem_base hbase, ?_⟩ ⟨?_, ?_⟩
    · rintro ⟨p, radix, cs, hp, ht⟩
      exact absurd (hsem hp ht) id
    · rintro ⟨p, radix, cs, m, hp, -, ⟨ht, -⟩ | ⟨ht, -⟩⟩
      · exact hsem hp ht
      · exact hsem hp ht
    · rintro ⟨p, radix, cs, m, hp, -, ht, -⟩
      exact hsem hp ht
  | some par =>
    obtain ⟨radix, corpo⟩ := par
    obtain ⟨p, hp, ht⟩ := corpoComBase_eq_some.mp hbase
    rw [bigint_fiel_iff hbase, forall_prop_of_true ⟨p, radix, corpo, hp, ht⟩]
    exact and_congr_right fun hsinal => number_fiel hbase hsinal

end

/-- `0x-5` is five below zero for the client, and no literal for the language. -/
theorem sinal_apos_a_base : ¬ ∀ s, CoercaoFiel s := by
  intro h
  have hbase : corpoComBase (jsTrimChars "0x-5".toList) = some (16, ['-', '5']) := by decide
  refine (bigint_fiel_iff hbase).mp (h _).1 ⟨['0', 'x'], 16, ['5'], 5, ?_, .um rfl, .inl ?_⟩
  · exact List.mem_cons_self
  · exact ⟨by decide, by decide⟩

/-- A hexadecimal number of 54 bits is one for the client and no safe integer. -/
example : jsNumberSeguro "0x20000000000000" = some 9007199254740992 := by decide

end Eav7
