import Mathlib.Data.List.Basic
import Mathlib.Data.Set.Function

/-!
# Merkle trees over lists of digests

A level is paired up until one digest is left, an odd last one with itself. A path
holds the sibling of every level. The path of a leaf leads to the root; conversely,
a path that leads to the root goes through the leaves, whatever siblings it was
given, when no collision of the hash was used.
-/

namespace Base.Merkle

variable {α β : Type*}

/-- A sibling and the side it stands on. -/
structure Passo (α : Type*) where
  hash : α
  right : Bool
deriving DecidableEq

/-- The pairs that a level is hashed in. -/
def pares : List α → List (α × α)
  | [] => []
  | [a] => [(a, a)]
  | a :: b :: resto => (a, b) :: pares resto

section

variable (no : α → α → α)

def nivel (l : List α) : List α := (pares l).map fun p => no p.1 p.2

/-- The digest that is left when a list is paired up. -/
inductive Raiz : List α → α → Prop where
  | folha (r : α) : Raiz [r] r
  | sobe {l : List α} {r : α} (h : 2 ≤ l.length) (hr : Raiz (nivel no l) r) : Raiz l r

/-- The pairs hashed on the way from a list to its root. -/
inductive Par : List α → α × α → Prop where
  | aqui {l : List α} {p : α × α} (h : 2 ≤ l.length) (hp : p ∈ pares l) : Par l p
  | acima {l : List α} {p : α × α} (h : 2 ≤ l.length) (hp : Par (nivel no l) p) : Par l p

def sobe (h : α) (p : Passo α) : α := if p.right then no h p.hash else no p.hash h

/-- The digest that a path leads to. -/
def caminha (h : α) (ps : List (Passo α)) : α := ps.foldl (sobe no) h

/-- The digest paired with that of an index, which at the odd end is itself. -/
def irmao (l : List α) (i : ℕ) : Option α :=
  if i % 2 = 0 then l[i + 1]?.or l[i]? else l[i - 1]?

/-- All the pairs hashed up to a number of levels. -/
def todosPares : ℕ → List α → List (α × α)
  | 0, _ => []
  | n + 1, l => if l.length ≤ 1 then [] else pares l ++ todosPares n (nivel no l)

/-- The siblings from an index up, with a bound on the number of levels. -/
def caminhoDe : ℕ → List α → ℕ → List (Passo α)
  | 0, _, _ => []
  | n + 1, l, i =>
    if l.length ≤ 1 then []
    else match irmao l i with
      | none => []
      | some h => ⟨h, i % 2 == 0⟩ :: caminhoDe n (nivel no l) (i / 2)

end

/-! ## Levels -/

theorem length_pares (l : List α) : (pares l).length = (l.length + 1) / 2 := by
  induction l using pares.induct with
  | case1 => simp [pares]
  | case2 a => simp [pares]
  | case3 a b resto ih =>
    rw [pares, List.length_cons, ih, List.length_cons, List.length_cons]
    omega

theorem pares_getElem? (l : List α) {i : ℕ} {a : α} (h : l[i]? = some a) :
    ∃ b, irmao l i = some b ∧
      (pares l)[i / 2]? = some (if i % 2 = 0 then (a, b) else (b, a)) := by
  induction l using pares.induct generalizing i with
  | case1 => cases h
  | case2 x =>
    have hi : i = 0 := by
      have := (List.getElem?_eq_some_iff.mp h).1
      rw [List.length_singleton] at this
      omega
    subst hi
    obtain rfl : x = a := Option.some.inj h
    exact ⟨x, rfl, rfl⟩
  | case3 x y resto ih =>
    match i with
    | 0 =>
      obtain rfl : x = a := Option.some.inj h
      exact ⟨y, rfl, rfl⟩
    | 1 =>
      obtain rfl : y = a := Option.some.inj h
      exact ⟨x, rfl, rfl⟩
    | i + 2 =>
      obtain ⟨b, hb, hp⟩ := ih (i := i) h
      have hmod : (i + 2) % 2 = i % 2 := Nat.add_mod_right i 2
      have hdiv : (i + 2) / 2 = i / 2 + 1 := Nat.add_div_right i (by decide)
      refine ⟨b, ?_, ?_⟩
      · unfold irmao at hb ⊢
        rw [hmod]
        by_cases hz : i % 2 = 0
        · rw [if_pos hz] at hb ⊢
          exact hb
        · rw [if_neg hz] at hb ⊢
          obtain ⟨j, rfl⟩ : ∃ j, i = j + 1 := ⟨i - 1, by omega⟩
          exact hb
      · rw [hmod, hdiv]
        exact hp

theorem mem_of_mem_pares {l : List α} {p : α × α} (h : p ∈ pares l) : p.1 ∈ l ∧ p.2 ∈ l := by
  induction l using pares.induct with
  | case1 => cases h
  | case2 a =>
    obtain rfl := List.mem_singleton.mp h
    exact ⟨List.mem_cons_self, List.mem_cons_self⟩
  | case3 a b resto ih =>
    rcases List.mem_cons.mp h with rfl | h
    · exact ⟨List.mem_cons_self, List.mem_cons_of_mem _ List.mem_cons_self⟩
    · obtain ⟨h1, h2⟩ := ih h
      exact ⟨List.mem_cons_of_mem _ (List.mem_cons_of_mem _ h1),
        List.mem_cons_of_mem _ (List.mem_cons_of_mem _ h2)⟩

section

variable {no : α → α → α}

theorem length_nivel (l : List α) : (nivel no l).length = (l.length + 1) / 2 := by
  rw [nivel, List.length_map, length_pares]

theorem Par.mem_todosPares {l : List α} {p : α × α} (h : Par no l p) {n : ℕ}
    (hn : l.length ≤ n + 1) : p ∈ todosPares no n l := by
  induction h generalizing n with
  | aqui hl hp =>
    obtain ⟨m, rfl⟩ : ∃ m, n = m + 1 := ⟨n - 1, by omega⟩
    rw [todosPares, if_neg (by omega)]
    exact List.mem_append_left _ hp
  | acima hl _ ih =>
    obtain ⟨m, rfl⟩ : ∃ m, n = m + 1 := ⟨n - 1, by omega⟩
    rw [todosPares, if_neg (by omega)]
    exact List.mem_append_right _ (ih (by rw [length_nivel]; omega))

/-- One step of a path leads to the level above. -/
theorem nivel_getElem? {l : List α} {i : ℕ} {a : α} (h : l[i]? = some a) :
    ∃ b, irmao l i = some b ∧ (nivel no l)[i / 2]? = some (sobe no a ⟨b, i % 2 == 0⟩) := by
  obtain ⟨b, hb, hp⟩ := pares_getElem? l h
  refine ⟨b, hb, ?_⟩
  rw [nivel, List.getElem?_map, hp]
  unfold sobe
  by_cases hz : i % 2 = 0
  · rw [if_pos hz]
    simp [hz]
  · rw [if_neg hz]
    simp [hz]

/-! ## The path of a leaf leads to the root -/

theorem caminha_cons (h : α) (p : Passo α) (ps : List (Passo α)) :
    caminha no h (p :: ps) = caminha no (sobe no h p) ps := rfl

theorem caminha_append (h : α) (ps qs : List (Passo α)) :
    caminha no h (ps ++ qs) = caminha no (caminha no h ps) qs := List.foldl_append

theorem Raiz.caminha_caminhoDe {l : List α} {r : α} (hr : Raiz no l r) {n : ℕ}
    (hn : l.length ≤ n + 1) {i : ℕ} {a : α} (h : l[i]? = some a) :
    caminha no a (caminhoDe no n l i) = r := by
  induction hr generalizing n i a with
  | folha r =>
    have hi : i = 0 := by
      have := (List.getElem?_eq_some_iff.mp h).1
      rw [List.length_singleton] at this
      omega
    subst hi
    obtain rfl : r = a := Option.some.inj h
    cases n <;> rfl
  | sobe hl _ ih =>
    rename_i l r _
    obtain ⟨m, rfl⟩ : ∃ m, n = m + 1 := ⟨n - 1, by omega⟩
    obtain ⟨b, hb, hn'⟩ := nivel_getElem? h
    rw [caminhoDe, if_neg (by omega), hb]
    exact ih (by rw [length_nivel]; omega) hn'

/-- The path holds only digests of the tree. -/
theorem Raiz.par_of_mem_caminhoDe {l : List α} {r : α} (hr : Raiz no l r) {n i : ℕ} {a : α}
    (h : l[i]? = some a) {ps qs : List (Passo α)} {p : Passo α}
    (hp : caminhoDe no n l i = ps ++ p :: qs) :
    Par no l (if p.right then (caminha no a ps, p.hash) else (p.hash, caminha no a ps)) := by
  induction hr generalizing n i a ps with
  | folha r =>
    cases n with
    | zero => simp [caminhoDe] at hp
    | succ n => simp [caminhoDe] at hp
  | sobe hl _ ih =>
    rename_i l r _
    cases n with
    | zero => simp [caminhoDe] at hp
    | succ n =>
      obtain ⟨b, hb, hpar⟩ := pares_getElem? l h
      obtain ⟨b', hb', hn'⟩ := nivel_getElem? h
      obtain rfl : b = b' := Option.some.inj (hb.symm.trans hb')
      rw [caminhoDe, if_neg (by omega), hb] at hp
      cases ps with
      | nil =>
        obtain ⟨rfl, -⟩ := List.cons.inj hp
        refine .aqui hl ?_
        have hmem := List.mem_of_getElem? hpar
        by_cases hz : i % 2 = 0
        · simpa [hz, caminha] using hmem
        · simpa [hz, caminha] using hmem
      | cons p' ps =>
        obtain ⟨rfl, hp'⟩ := List.cons.inj hp
        exact .acima hl (ih hn' hp')

end

/-! ## A path to the root goes through the leaves -/

/-- The preimages of the digests of a path, from the first step on. -/
def preimagens (no : α → α → α) (par : α → α → β) (h : α) : List (Passo α) → List β
  | [] => []
  | p :: ps =>
    (if p.right then par h p.hash else par p.hash h) :: preimagens no par (sobe no h p) ps

section

variable {H : β → α} {par : α → α → β}

/-- Digests are hashes of pairs of digests. -/
def noDe (H : β → α) (par : α → α → β) (a b : α) : α := H (par a b)

/-- A pair of well formed digests can be taken apart from either side. -/
structure Alinha (bom : α → Prop) (par : α → α → β) : Prop where
  esquerda : ∀ {a b x y}, bom a → bom b → par a x = par b y → a = b
  direita : ∀ {a b x y}, bom a → bom b → par x a = par y b → a = b

theorem preimagens_append (no : α → α → α) (h : α) (ps qs : List (Passo α)) :
    preimagens no par h (ps ++ qs) =
      preimagens no par h ps ++ preimagens no par (caminha no h ps) qs := by
  induction ps generalizing h with
  | nil => rfl
  | cons p ps ih =>
    rw [List.cons_append, preimagens, preimagens, List.cons_append, ih]
    rfl

/-- A preimage of a path is that of one of its steps. -/
theorem mem_preimagens {no : α → α → α} {h : α} {ps : List (Passo α)} {y : β}
    (hy : y ∈ preimagens no par h ps) : ∃ qs p rs, ps = qs ++ p :: rs ∧
      y = if p.right then par (caminha no h qs) p.hash else par p.hash (caminha no h qs) := by
  induction ps generalizing h with
  | nil => cases hy
  | cons p ps ih =>
    rcases List.mem_cons.mp hy with rfl | hy
    · exact ⟨[], p, ps, rfl, rfl⟩
    · obtain ⟨qs, p', rs, rfl, rfl⟩ := ih hy
      exact ⟨p :: qs, p', rs, rfl, rfl⟩

variable {bom : α → Prop} {T : Set β}

theorem bom_caminha (par : α → α → β) (hH : ∀ x, bom (H x)) {h : α} (hh : bom h) (ps : List (Passo α)) :
    bom (caminha (noDe H par) h ps) := by
  induction ps generalizing h with
  | nil => exact hh
  | cons p ps ih =>
    refine ih ?_
    unfold sobe
    split_ifs
    · exact hH _
    · exact hH _

/-- The same path leads two digests to one digest only from the same start. -/
theorem caminha_inj (hal : Alinha bom par) (hH : ∀ x, bom (H x)) (hinj : Set.InjOn H T) {h h' : α}
    (hh : bom h) (hh' : bom h') {ps : List (Passo α)}
    (hps : ∀ y ∈ preimagens (noDe H par) par h ps, y ∈ T)
    (hps' : ∀ y ∈ preimagens (noDe H par) par h' ps, y ∈ T)
    (heq : caminha (noDe H par) h ps = caminha (noDe H par) h' ps) : h = h' := by
  induction ps generalizing h h' with
  | nil => exact heq
  | cons p ps ih =>
    obtain ⟨hp, hps⟩ := List.forall_mem_cons.mp hps
    obtain ⟨hp', hps'⟩ := List.forall_mem_cons.mp hps'
    have hbom : ∀ {h}, bom (sobe (noDe H par) h p) := by
      intro h
      unfold sobe
      split_ifs
      · exact hH _
      · exact hH _
    have hsobe := ih hbom hbom hps hps' heq
    unfold sobe at hsobe
    by_cases hr : p.right = true
    · rw [if_pos hr] at hp hp'
      rw [if_pos hr, if_pos hr] at hsobe
      exact hal.esquerda hh hh' (hinj hp hp' hsobe)
    · rw [if_neg hr] at hp hp'
      rw [if_neg hr, if_neg hr] at hsobe
      exact hal.direita hh hh' (hinj hp hp' hsobe)

/-- What a walk that ends in a digest of a level went through. -/
theorem desce_nivel (hal : Alinha bom par) (hH : ∀ x, bom (H x)) (hinj : Set.InjOn H T) {l : List α}
    (hl : ∀ a ∈ l, bom a) (hpares : ∀ p ∈ pares l, par p.1 p.2 ∈ T) {x : β} (hx : x ∈ T)
    (hfolha : ∀ a b, bom a → bom b → x ≠ par a b) {ps : List (Passo α)}
    (hps : ∀ y ∈ preimagens (noDe H par) par (H x) ps, y ∈ T)
    (hfim : caminha (noDe H par) (H x) ps ∈ nivel (noDe H par) l) :
    ∃ qs, qs <+: ps ∧ caminha (noDe H par) (H x) qs ∈ l := by
  obtain ⟨⟨a, b⟩, hab, heq⟩ := List.mem_map.mp hfim
  obtain ⟨ha, hb⟩ := mem_of_mem_pares hab
  have hT := hpares _ hab
  change H (par a b) = _ at heq
  rcases List.eq_nil_or_concat ps with rfl | ⟨qs, p, rfl⟩
  · exact absurd (hinj hT hx heq).symm (hfolha a b (hl a ha) (hl b hb))
  · rw [List.concat_eq_append] at hps heq
    rw [preimagens_append] at hps
    have hq := hps _ (List.mem_append_right _ List.mem_cons_self)
    have hbom := bom_caminha par hH (hH x) qs
    refine ⟨qs, ⟨[p], (List.concat_eq_append).symm⟩, ?_⟩
    rw [caminha_append, caminha_cons, caminha, List.foldl_nil] at heq
    unfold sobe at heq
    by_cases hr : p.right
    · rw [if_pos hr] at heq hq
      rw [hal.esquerda hbom (hl a ha) (hinj hT hq heq).symm]
      exact ha
    · rw [if_neg hr] at heq hq
      rw [hal.direita hbom (hl b hb) (hinj hT hq heq).symm]
      exact hb

/-- A walk to the root, from a preimage that no pair has, went through a leaf. -/
theorem Raiz.desce (hal : Alinha bom par) (hH : ∀ x, bom (H x)) (hinj : Set.InjOn H T)
    {l : List α} {r : α} (hr : Raiz (noDe H par) l r) (hl : ∀ a ∈ l, bom a)
    (hpares : ∀ p, Par (noDe H par) l p → par p.1 p.2 ∈ T) {x : β} (hx : x ∈ T)
    (hfolha : ∀ a b, bom a → bom b → x ≠ par a b) {ps : List (Passo α)}
    (hps : ∀ y ∈ preimagens (noDe H par) par (H x) ps, y ∈ T)
    (hfim : caminha (noDe H par) (H x) ps = r) :
    ∃ qs, qs <+: ps ∧ caminha (noDe H par) (H x) qs ∈ l := by
  induction hr generalizing ps with
  | folha r => exact ⟨ps, List.prefix_rfl, hfim ▸ List.mem_cons_self⟩
  | sobe h _ ih =>
    rename_i l r _
    have hbom : ∀ a ∈ nivel (noDe H par) l, bom a := by
      intro a ha
      obtain ⟨p, -, rfl⟩ := List.mem_map.mp ha
      exact hH _
    obtain ⟨qs, hqs, hmem⟩ := ih hbom (fun p hp => hpares p (.acima h hp)) hps hfim
    obtain ⟨resto, rfl⟩ := hqs
    rw [preimagens_append] at hps
    obtain ⟨qs', hqs', hmem'⟩ := desce_nivel hal hH hinj hl (fun p hp => hpares p (.aqui h hp)) hx
      hfolha (fun y hy => hps y (List.mem_append_left _ hy)) hmem
    exact ⟨qs', hqs'.trans (List.prefix_append qs resto), hmem'⟩

end

/-! ## The tree of other digests -/

section

variable {γ : Type*} {f : α → γ} {no : α → α → α} {no' : γ → γ → γ}

def Passo.map (f : α → γ) (p : Passo α) : Passo γ := ⟨f p.hash, p.right⟩

theorem pares_map (f : α → γ) (l : List α) : pares (l.map f) = (pares l).map (Prod.map f f) := by
  induction l using pares.induct with
  | case1 => rfl
  | case2 a => rfl
  | case3 a b resto ih => exact congrArg _ ih

theorem nivel_map (hno : ∀ a b, no' (f a) (f b) = f (no a b)) (l : List α) :
    nivel no' (l.map f) = (nivel no l).map f := by
  unfold nivel
  rw [pares_map, List.map_map, List.map_map]
  exact List.map_congr_left fun p _ => hno p.1 p.2

/-- A tree carried over digest by digest hashes the same pairs. -/
theorem todosPares_map (hno : ∀ a b, no' (f a) (f b) = f (no a b)) (n : ℕ) (l : List α) :
    todosPares no' n (l.map f) = (todosPares no n l).map (Prod.map f f) := by
  induction n generalizing l with
  | zero => rfl
  | succ n ih =>
    rw [todosPares, todosPares, List.length_map, pares_map, nivel_map hno, ih]
    split_ifs
    · rfl
    · exact List.map_append.symm

theorem preimagens_map {par : α → α → β} {par' : γ → γ → β}
    (hno : ∀ a b, no' (f a) (f b) = f (no a b)) (hpar : ∀ a b, par' (f a) (f b) = par a b)
    (h : α) (ps : List (Passo α)) :
    preimagens no' par' (f h) (ps.map (Passo.map f)) = preimagens no par h ps := by
  induction ps generalizing h with
  | nil => rfl
  | cons p ps ih =>
    have hsobe : sobe no' (f h) (p.map f) = f (sobe no h p) := by
      unfold sobe Passo.map
      split_ifs <;> exact hno _ _
    rw [List.map_cons, preimagens, preimagens, hsobe, ih]
    refine congrArg (· :: _) ?_
    change (if p.right = true then par' (f h) (f p.hash) else par' (f p.hash) (f h)) = _
    rw [hpar, hpar]

end

end Base.Merkle
