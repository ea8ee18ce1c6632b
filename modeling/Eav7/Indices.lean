import Mathlib.Data.List.Induction
import Eav7.Consenso

/-!
# What the indices of the chain hold

Each index is described by its lookups, as a function of the blocks it covers.
One lemma says what accepting a block does to it, another what a reorganisation
does: cut at the fork, then extend.
-/

namespace Eav7.Blockchain

open Base

/-! ## Ascending lists of heights -/

/-- Blocks in strictly increasing height order. -/
def Ascendente (bs : List Block) : Prop := bs.Pairwise fun a b => a.height < b.height

/-- The heights of the blocks with a property, in chain order. -/
def alturasCom (p : Block → Bool) (bs : List Block) : List ℕ := (bs.filter p).map (·.height)

def temTxs (b : Block) : Bool := !b.transactions.isEmpty

def toca (endereco : String) (b : Block) : Bool :=
  b.transactions.any fun tx => decide (endereco ∈ enderecosDe tx)

@[simp] theorem alturasCom_nil (p : Block → Bool) : alturasCom p [] = [] := rfl

theorem alturasCom_append (p : Block → Bool) (as bs : List Block) :
    alturasCom p (as ++ bs) = alturasCom p as ++ alturasCom p bs := by
  simp [alturasCom]

theorem alturasCom_singleton (p : Block → Bool) (b : Block) :
    alturasCom p [b] = if p b then [b.height] else [] := by
  by_cases h : p b <;> simp [alturasCom, h]

theorem mem_alturasCom {p : Block → Bool} {bs : List Block} {h : ℕ} :
    h ∈ alturasCom p bs ↔ ∃ b ∈ bs, p b = true ∧ b.height = h := by
  simp [alturasCom, and_assoc]

theorem alturasCom_pairwise {p : Block → Bool} {bs : List Block} (h : Ascendente bs) :
    (alturasCom p bs).Pairwise (· < ·) :=
  List.pairwise_map.mpr (h.filter _)

theorem Ascendente.filter_altura {as bs : List Block} {common : ℕ}
    (has : ∀ b ∈ as, b.height ≤ common) (hbs : ∀ b ∈ bs, common < b.height) (p : Block → Bool) :
    (alturasCom p (as ++ bs)).filter (fun h => decide (h ≤ common)) = alturasCom p as := by
  rw [alturasCom_append, List.filter_append]
  have hl : (alturasCom p as).filter (fun h => decide (h ≤ common)) = alturasCom p as := by
    refine List.filter_eq_self.mpr ?_
    intro h hh
    obtain ⟨b, hb, -, rfl⟩ := mem_alturasCom.mp hh
    exact decide_eq_true (has b hb)
  have hr : (alturasCom p bs).filter (fun h => decide (h ≤ common)) = [] := by
    refine List.filter_eq_nil_iff.mpr ?_
    intro h hh
    obtain ⟨b, hb, -, rfl⟩ := mem_alturasCom.mp hh
    have := hbs b hb
    simp only [decide_eq_true_eq]
    omega
  rw [hl, hr, List.append_nil]

/-- On an ascending list, cutting the end keeps exactly the heights up to the fork. -/
theorem podaAlturas_eq_filter {common : ℕ} {alturas : List ℕ} (h : alturas.Pairwise (· < ·)) :
    podaAlturas common alturas = alturas.filter fun n => decide (n ≤ common) := by
  induction alturas using List.reverseRecOn with
  | nil => rfl
  | append_singleton l x ih =>
    obtain ⟨hl, -, hx⟩ := List.pairwise_append.mp h
    by_cases hc : common < x
    · have hfim : podaAlturas common (l ++ [x]) = podaAlturas common l := by
        simp [podaAlturas, hc]
      rw [hfim, ih hl, List.filter_append]
      simp [hc]
    · have hfim : podaAlturas common (l ++ [x]) = l ++ [x] := by
        simp [podaAlturas, hc]
      rw [hfim]
      refine (List.filter_eq_self.mpr ?_).symm
      intro n hn
      rcases List.mem_append.mp hn with hn | hn
      · have := hx n hn x (List.mem_singleton_self x)
        exact decide_eq_true (by omega)
      · exact decide_eq_true (by rw [List.mem_singleton.mp hn]; omega)

/-! ## The addresses -/

/-- The index lists, for each address, the heights of the blocks that touch it. -/
def IndexaEnderecos (m : OrdMap String (List ℕ)) (bs : List Block) : Prop :=
  ∀ a, m.get? a = if alturasCom (toca a) bs = [] then none else some (alturasCom (toca a) bs)

theorem IndexaEnderecos.getD {m : OrdMap String (List ℕ)} {bs : List Block}
    (h : IndexaEnderecos m bs) (a : String) : m.getD a [] = alturasCom (toca a) bs := by
  unfold OrdMap.getD
  rw [h a]
  split_ifs with hn
  · simp [hn]
  · rfl

/-- Annotating a height under several addresses adds it once to each. -/
theorem get?_foldl_anota {m : OrdMap String (List ℕ)} {h : ℕ}
    (hm : ∀ a, (m.getD a []).getLast? ≠ some h) (es : List String) (a : String) :
    (es.foldl (anotaEndereco h) m).get? a =
      if a ∈ es then some (m.getD a [] ++ [h]) else m.get? a := by
  induction es using List.reverseRecOn generalizing a with
  | nil => simp
  | append_singleton es e ih =>
    rw [List.foldl_append, List.foldl_cons, List.foldl_nil, anotaEndereco, OrdMap.get?_insert]
    have hD : (es.foldl (anotaEndereco h) m).getD e [] =
        if e ∈ es then m.getD e [] ++ [h] else m.getD e [] := by
      unfold OrdMap.getD
      rw [ih e]
      split_ifs <;> simp [OrdMap.getD]
    by_cases hae : a = e
    · subst hae
      rw [if_pos rfl, if_pos (List.mem_append_right _ (List.mem_singleton_self a)), hD]
      by_cases hmem : a ∈ es
      · simp [hmem]
      · rw [if_neg hmem, if_neg (hm a)]
    · rw [if_neg hae, ih a]
      simp [hae]

theorem mem_enderecos_iff {b : Block} {a : String} :
    a ∈ b.transactions.flatMap enderecosDe ↔ toca a b = true := by
  simp [toca]

theorem alturasCom_getLast?_ne {p : Block → Bool} {bs : List Block} {h : ℕ}
    (hlt : ∀ b ∈ bs, b.height < h) : (alturasCom p bs).getLast? ≠ some h := by
  intro hlast
  obtain ⟨b, hb, -, hh⟩ := mem_alturasCom.mp (List.mem_of_getLast? hlast)
  have := hlt b hb
  omega

theorem IndexaEnderecos.aceita {m : OrdMap String (List ℕ)} {bs : List Block}
    (h : IndexaEnderecos m bs) {b : Block} (hlt : ∀ b' ∈ bs, b'.height < b.height) :
    IndexaEnderecos ((b.transactions.flatMap enderecosDe).foldl (anotaEndereco b.height) m)
      (bs ++ [b]) := by
  intro a
  have hm : ∀ a, (m.getD a []).getLast? ≠ some b.height := by
    intro a
    rw [h.getD a]
    exact alturasCom_getLast?_ne hlt
  rw [get?_foldl_anota hm, alturasCom_append, alturasCom_singleton]
  by_cases ht : toca a b = true
  · rw [if_pos (mem_enderecos_iff.mpr ht), if_pos ht, h.getD a]
    simp
  · rw [if_neg (mt mem_enderecos_iff.mp ht), if_neg ht, List.append_nil]
    exact h a

/-- Pruning the lists of several addresses prunes each of them once. -/
theorem get?_foldl_poda {common : ℕ} {m : OrdMap String (List ℕ)}
    (hasc : ∀ a l, m.get? a = some l → l.Pairwise (· < ·)) (es : List String) (a : String) :
    (es.foldl (podaEndereco common) m).get? a =
      if a ∈ es then
        (m.get? a).bind fun l => if podaAlturas common l = [] then none
          else some (podaAlturas common l)
      else m.get? a := by
  induction es using List.reverseRecOn generalizing a with
  | nil => simp
  | append_singleton es e ih =>
    rw [List.foldl_append, List.foldl_cons, List.foldl_nil]
    have hpasso : ∀ (n : OrdMap String (List ℕ)),
        (podaEndereco common n e).get? a = if a = e then
          (n.get? e).bind fun l => if podaAlturas common l = [] then none
            else some (podaAlturas common l)
        else n.get? a := by
      intro n
      unfold podaEndereco
      cases hn : n.get? e with
      | none =>
        by_cases hae : a = e
        · simp [hae, hn]
        · simp [hae]
      | some l =>
        by_cases hp : podaAlturas common l = []
        · simp [hp, OrdMap.get?_erase]
        · simp [hp, OrdMap.get?_insert]
    rw [hpasso]
    by_cases hae : a = e
    · subst hae
      rw [if_pos rfl, if_pos (List.mem_append_right _ (List.mem_singleton_self a)), ih a]
      by_cases hmem : a ∈ es
      · rw [if_pos hmem]
        cases hma : m.get? a with
        | none => rfl
        | some l =>
          have hl := hasc a l hma
          have hidem : podaAlturas common (podaAlturas common l) = podaAlturas common l := by
            rw [podaAlturas_eq_filter hl, podaAlturas_eq_filter (hl.filter _),
              List.filter_filter]
            simp
          by_cases hp : podaAlturas common l = []
          · simp [hp]
          · simp [hp, hidem]
      · rw [if_neg hmem]
    · rw [if_neg hae, ih a]
      simp [hae]

/-- Cutting the discarded blocks out of the address index. -/
theorem IndexaEnderecos.poda {m : OrdMap String (List ℕ)} {as bs : List Block} {common : ℕ}
    (h : IndexaEnderecos m (as ++ bs)) (hasc : Ascendente (as ++ bs))
    (has : ∀ b ∈ as, b.height ≤ common) (hbs : ∀ b ∈ bs, common < b.height) :
    IndexaEnderecos (podaIndices common bs m) as := by
  intro a
  have hlista : ∀ a l, m.get? a = some l → l.Pairwise (· < ·) := by
    intro a l hl
    rw [h a] at hl
    split_ifs at hl
    cases hl
    exact alturasCom_pairwise hasc
  have hcorte : podaAlturas common (alturasCom (toca a) (as ++ bs)) = alturasCom (toca a) as := by
    rw [podaAlturas_eq_filter (alturasCom_pairwise hasc), Ascendente.filter_altura has hbs]
  unfold podaIndices
  rw [get?_foldl_poda hlista, h a]
  by_cases hmem : a ∈ bs.flatMap fun b => b.transactions.flatMap enderecosDe
  · rw [if_pos hmem]
    by_cases hn : alturasCom (toca a) (as ++ bs) = []
    · have hna : alturasCom (toca a) as = [] := by
        rw [alturasCom_append] at hn
        exact (List.append_eq_nil_iff.mp hn).1
      simp [hn, hna]
    · simp [hn, hcorte]
  · have hfora : alturasCom (toca a) bs = [] := by
      refine List.eq_nil_iff_forall_not_mem.mpr ?_
      intro n hmemn
      obtain ⟨b, hb, htoca, -⟩ := mem_alturasCom.mp hmemn
      exact hmem (List.mem_flatMap.mpr ⟨b, hb, mem_enderecos_iff.mpr htoca⟩)
    rw [if_neg hmem, alturasCom_append, hfora, List.append_nil]

theorem get?_foldl_estende (es : List (String × List ℕ)) (m : OrdMap String (List ℕ))
    (hes : es.Pairwise fun a b => a.1 < b.1) (a : String) :
    (es.foldl (fun m e => m.insert e.1 (m.getD e.1 [] ++ e.2)) m).get? a =
      match OrdMap.find a es with
      | some l => some (m.getD a [] ++ l)
      | none => m.get? a := by
  induction es generalizing m with
  | nil => rfl
  | cons e es ih =>
    obtain ⟨he, hes⟩ := List.pairwise_cons.mp hes
    rw [List.foldl_cons, ih _ hes, OrdMap.find]
    by_cases hae : a = e.1
    · have hnone : OrdMap.find a es = none :=
        OrdMap.find_eq_none_of_lt fun d hd => hae ▸ he d hd
      rw [if_pos hae, hnone]
      simp [hae]
    · rw [if_neg hae]
      cases OrdMap.find a es with
      | none => simp [OrdMap.get?_insert_of_ne _ hae]
      | some l => simp [OrdMap.getD_insert, hae]

theorem IndexaEnderecos.estende {m novos : OrdMap String (List ℕ)} {as bs : List Block}
    (h : IndexaEnderecos m as) (hn : IndexaEnderecos novos bs) :
    IndexaEnderecos (estendeIndices novos m) (as ++ bs) := by
  intro a
  have hfind : OrdMap.find a novos.entries = novos.get? a := rfl
  unfold estendeIndices
  rw [get?_foldl_estende _ _ novos.sorted, hfind, hn a, alturasCom_append]
  by_cases hb : alturasCom (toca a) bs = []
  · simp only [hb, if_true, List.append_nil]
    exact h a
  · simp only [hb, if_false, h.getD a]
    simp [hb]

/-! ## The transactions -/

def idsDe (b : Block) : List String := b.transactions.filterMap (·.id)

/-- The index sends each id to the height of a block that carries it, and an id
stands in blocks of one height only. -/
def IndexaTxs (m : OrdMap String ℕ) (bs : List Block) : Prop :=
  ∀ id h, m.get? id = some h ↔ ∃ b ∈ bs, id ∈ idsDe b ∧ b.height = h

theorem get?_indexTxs (height : ℕ) (txs : List Tx) (m : OrdMap String ℕ) (id : String) :
    (indexTxs height txs m).get? id =
      if id ∈ txs.filterMap (·.id) then some height else m.get? id := by
  unfold indexTxs
  generalize txs.filterMap (·.id) = ids
  induction ids using List.reverseRecOn with
  | nil => simp
  | append_singleton ids x ih =>
    rw [List.foldl_append, List.foldl_cons, List.foldl_nil, OrdMap.get?_insert, ih]
    by_cases hx : id = x
    · simp [hx]
    · simp [hx]

theorem IndexaTxs.aceita {m : OrdMap String ℕ} {bs : List Block} (h : IndexaTxs m bs) {b : Block}
    (hnovas : ∀ id ∈ idsDe b, m.get? id = none) :
    IndexaTxs (indexTxs b.height b.transactions m) (bs ++ [b]) := by
  intro id n
  rw [get?_indexTxs]
  change (if id ∈ idsDe b then some b.height else m.get? id) = some n ↔ _
  by_cases hid : id ∈ idsDe b
  · rw [if_pos hid]
    constructor
    · intro hn
      exact ⟨b, List.mem_append_right _ (List.mem_singleton_self b), hid, Option.some.inj hn⟩
    · rintro ⟨b', hb', hid', rfl⟩
      rcases List.mem_append.mp hb' with hb' | hb'
      · have hsome := (h id b'.height).mpr ⟨b', hb', hid', rfl⟩
        rw [hnovas id hid] at hsome
        cases hsome
      · rw [List.mem_singleton.mp hb']
  · rw [if_neg hid, h id n]
    constructor
    · rintro ⟨b', hb', hid'⟩
      exact ⟨b', List.mem_append_left _ hb', hid'⟩
    · rintro ⟨b', hb', hid', hn⟩
      rcases List.mem_append.mp hb' with hb' | hb'
      · exact ⟨b', hb', hid', hn⟩
      · exact absurd (List.mem_singleton.mp hb' ▸ hid') hid

theorem IndexaTxs.corta {m : OrdMap String ℕ} {as bs : List Block} {common : ℕ}
    (h : IndexaTxs m (as ++ bs)) (has : ∀ b ∈ as, b.height ≤ common)
    (hbs : ∀ b ∈ bs, common < b.height) :
    IndexaTxs (m.filter fun _ n => decide (n ≤ common)) as := by
  intro id n
  rw [OrdMap.get?_filter, Option.filter_eq_some_iff, h id n]
  constructor
  · rintro ⟨⟨b, hb, hid, hn⟩, hle⟩
    rcases List.mem_append.mp hb with hb | hb
    · exact ⟨b, hb, hid, hn⟩
    · have := hbs b hb
      have := of_decide_eq_true hle
      omega
  · rintro ⟨b, hb, hid, rfl⟩
    exact ⟨⟨b, List.mem_append_left _ hb, hid, rfl⟩, decide_eq_true (has b hb)⟩

/-! ## The hashes -/

/-- The index sends each hash to the height of the block that has it. -/
def IndexaHashes (m : OrdMap String ℕ) (bs : List Block) : Prop :=
  ∀ hash h, m.get? hash = some h ↔ ∃ b ∈ bs, b.hash = hash ∧ b.height = h

/-- Blocks with the same hash have the same height. -/
def SemColisao (bs : List Block) : Prop :=
  ∀ a ∈ bs, ∀ b ∈ bs, a.hash = b.hash → a.height = b.height

theorem SemColisao.mono {as bs : List Block} (h : SemColisao bs) (hsub : as ⊆ bs) :
    SemColisao as := fun a ha b hb => h a (hsub ha) b (hsub hb)

theorem IndexaHashes.aceita {m : OrdMap String ℕ} {bs : List Block} (h : IndexaHashes m bs)
    {b : Block} (hcol : SemColisao (bs ++ [b])) :
    IndexaHashes (m.insert b.hash b.height) (bs ++ [b]) := by
  intro hash n
  have hb : b ∈ bs ++ [b] := List.mem_append_right _ (List.mem_singleton_self b)
  rw [OrdMap.get?_insert]
  by_cases hhash : hash = b.hash
  · rw [if_pos hhash]
    constructor
    · intro hn
      exact ⟨b, hb, hhash.symm, Option.some.inj hn⟩
    · rintro ⟨b', hb', heq, rfl⟩
      rw [hcol b' hb' b hb (heq.trans hhash)]
  · rw [if_neg hhash, h hash n]
    constructor
    · rintro ⟨b', hb', hd⟩
      exact ⟨b', List.mem_append_left _ hb', hd⟩
    · rintro ⟨b', hb', heq, hn⟩
      rcases List.mem_append.mp hb' with hb' | hb'
      · exact ⟨b', hb', heq, hn⟩
      · exact absurd (heq.symm.trans (by rw [List.mem_singleton.mp hb'])) hhash

theorem IndexaHashes.aceitaTodos {novos bs : List Block} {m : OrdMap String ℕ}
    (h : IndexaHashes m bs) (hcol : SemColisao (bs ++ novos)) :
    IndexaHashes (novos.foldl (fun m b => m.insert b.hash b.height) m) (bs ++ novos) := by
  induction novos generalizing bs m with
  | nil => simpa using h
  | cons b novos ih =>
    rw [List.append_cons] at hcol ⊢
    refine ih (h.aceita (hcol.mono ?_)) hcol
    exact List.subset_append_left _ _

theorem IndexaHashes.corta {descartados as : List Block} {m : OrdMap String ℕ}
    (h : IndexaHashes m (as ++ descartados)) (hcol : SemColisao (as ++ descartados))
    (hasc : Ascendente (as ++ descartados)) :
    IndexaHashes (descartados.foldl (fun m b => m.erase b.hash) m) as := by
  have hget : ∀ hash, (descartados.foldl (fun m b => m.erase b.hash) m).get? hash =
      if ∃ b ∈ descartados, b.hash = hash then none else m.get? hash := by
    intro hash
    clear h hcol hasc
    induction descartados generalizing m with
    | nil => simp
    | cons b bs ih =>
      rw [List.foldl_cons, ih, OrdMap.get?_erase]
      by_cases hb : b.hash = hash
      · simp [hb]
      · have hb' : hash ≠ b.hash := fun hc => hb hc.symm
        simp [hb, hb']
  obtain ⟨-, -, hentre⟩ := List.pairwise_append.mp hasc
  intro hash n
  rw [hget]
  by_cases hd : ∃ b ∈ descartados, b.hash = hash
  · rw [if_pos hd]
    obtain ⟨b, hb, hbh⟩ := hd
    constructor
    · intro hn
      cases hn
    · rintro ⟨a, ha, hah, -⟩
      have hlt := hentre a ha b hb
      have heq := hcol a (List.mem_append_left _ ha) b (List.mem_append_right _ hb)
        (hah.trans hbh.symm)
      omega
  · rw [if_neg hd, h hash n]
    constructor
    · rintro ⟨b, hb, hbh, hn⟩
      rcases List.mem_append.mp hb with hb | hb
      · exact ⟨b, hb, hbh, hn⟩
      · exact absurd ⟨b, hb, hbh⟩ hd
    · rintro ⟨b, hb, hbh⟩
      exact ⟨b, List.mem_append_left _ hb, hbh⟩

end Eav7.Blockchain
