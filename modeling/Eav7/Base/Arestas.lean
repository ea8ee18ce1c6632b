import Eav7.Base.OrdMap

/-!
# Weighted edges

A map of maps holds the weight of the edge between any two nodes. What leaves a node and
what enters it are sums over its edges, and a write of the edges of one node moves what
enters the others by as much as these edges moved.

The last section takes an amount from the front of a list.
-/

namespace Base

namespace OrdMap

variable {κ ν : Type*} [LinearOrder κ]

/-- Maps and weights that agree at every key but one have totals that differ by the
weights there. -/
theorem total_fora {m m' : OrdMap κ ν} {f f' : κ → ν → ℕ} {k : κ}
    (hm : ∀ j ≠ k, m'.get? j = m.get? j) (hf : ∀ j ≠ k, ∀ v, f' j v = f j v) :
    m'.total f' + m.weight f k = m.total f + m'.weight f' k := by
  have hresto : m'.erase k = m.erase k := by
    apply ext_get?
    intro j
    rw [get?_erase, get?_erase]
    split_ifs with hj
    · rfl
    · exact hm j hj
  have hpesos : (m'.erase k).total f' = (m.erase k).total f := by
    rw [hresto]
    apply total_congr
    intro j v hj
    rw [get?_erase] at hj
    split_ifs at hj with hjk
    exact hf j hjk v
  have h := total_erase f m k
  have h' := total_erase f' m' k
  omega

theorem total_fora_de {m m' : OrdMap κ ν} {k : κ} (h : ∀ j ≠ k, m'.get? j = m.get? j)
    (f : κ → ν → ℕ) : m'.total f + m.weight f k = m.total f + m'.weight f k :=
  total_fora h fun _ _ _ => rfl

theorem getD_of_not_mem_keys {m : OrdMap κ ν} {k : κ} {d : ν} (h : k ∉ m.keys) :
    m.getD k d = d := by
  unfold getD
  cases hk : m.get? k with
  | none => rfl
  | some v => exact absurd (mem_keys.mpr ⟨v, hk⟩) h

/-- A total with weight at one key only. -/
theorem total_eq_weight {m : OrdMap κ ν} {f : κ → ν → ℕ} {k : κ}
    (h : ∀ j ≠ k, ∀ v, m.get? j = some v → f j v = 0) : m.total f = m.weight f k := by
  have hresto : (m.erase k).total f = 0 := by
    apply total_eq_zero
    intro j v hj
    rw [get?_erase] at hj
    split_ifs at hj with hjk
    exact h j hjk v hj
  rw [← total_erase, hresto, Nat.zero_add]

end OrdMap

namespace Arestas

variable {κ : Type*} [LinearOrder κ] {g g' : OrdMap κ (OrdMap κ ℕ)} {a b : κ}

/-- The edges that leave a node. -/
def linha (g : OrdMap κ (OrdMap κ ℕ)) (a : κ) : OrdMap κ ℕ := g.getD a ∅

def peso (g : OrdMap κ (OrdMap κ ℕ)) (a b : κ) : ℕ := (linha g a).getD b 0

def saida (g : OrdMap κ (OrdMap κ ℕ)) (a : κ) : ℕ := (linha g a).total fun _ v => v

def entrada (g : OrdMap κ (OrdMap κ ℕ)) (b : κ) : ℕ := g.total fun _ m => m.getD b 0

theorem weight_entrada (g : OrdMap κ (OrdMap κ ℕ)) (a b : κ) :
    g.weight (fun _ m => m.getD b 0) a = peso g a b :=
  OrdMap.weight_eq_getD (fun _ m => m.getD b 0) g a (d := ∅) rfl

theorem peso_le_entrada (g : OrdMap κ (OrdMap κ ℕ)) (a b : κ) : peso g a b ≤ entrada g b := by
  rw [← weight_entrada]
  exact g.weight_le_total _ a

/-- Only the edges that leave one node may differ. -/
def MudaDe (a : κ) (g g' : OrdMap κ (OrdMap κ ℕ)) : Prop := ∀ a' ≠ a, g'.get? a' = g.get? a'

theorem MudaDe.trans {g'' : OrdMap κ (OrdMap κ ℕ)} (h : MudaDe a g g') (h' : MudaDe a g' g'') :
    MudaDe a g g'' := fun a' ha => (h' a' ha).trans (h a' ha)

theorem MudaDe.linha (h : MudaDe a g g') {a' : κ} (ha : a' ≠ a) :
    Arestas.linha g' a' = Arestas.linha g a' := by
  unfold Arestas.linha OrdMap.getD
  rw [h a' ha]

theorem MudaDe.saida (h : MudaDe a g g') {a' : κ} (ha : a' ≠ a) :
    Arestas.saida g' a' = Arestas.saida g a' := by
  unfold Arestas.saida
  rw [h.linha ha]

theorem MudaDe.entrada (h : MudaDe a g g') (b : κ) :
    Arestas.entrada g' b + peso g a b = Arestas.entrada g b + peso g' a b := by
  rw [← weight_entrada, ← weight_entrada]
  exact OrdMap.total_fora_de h _

theorem mudaDe_insert (g : OrdMap κ (OrdMap κ ℕ)) (a : κ) (m : OrdMap κ ℕ) :
    MudaDe a g (g.insert a m) := fun _ ha => OrdMap.get?_insert_of_ne g ha m

theorem mudaDe_erase (g : OrdMap κ (OrdMap κ ℕ)) (a : κ) : MudaDe a g (g.erase a) :=
  fun _ ha => OrdMap.get?_erase_of_ne g ha

theorem linha_insert (g : OrdMap κ (OrdMap κ ℕ)) (a : κ) (m : OrdMap κ ℕ) :
    linha (g.insert a m) a = m := by
  unfold linha
  rw [OrdMap.getD_insert, if_pos rfl]

theorem linha_erase (g : OrdMap κ (OrdMap κ ℕ)) (a : κ) : linha (g.erase a) a = ∅ := by
  unfold linha
  rw [OrdMap.getD_erase, if_pos rfl]

/-- The edge between two nodes is the only one that may differ. -/
structure Retoca (a b : κ) (g g' : OrdMap κ (OrdMap κ ℕ)) : Prop where
  outras : MudaDe a g g'
  linha : ∀ b' ≠ b, (Arestas.linha g' a).get? b' = (Arestas.linha g a).get? b'

namespace Retoca

theorem saida (h : Retoca a b g g') : Arestas.saida g' a + peso g a b =
    Arestas.saida g a + peso g' a b := by
  have htotal := OrdMap.total_fora_de h.linha fun _ v => v
  rwa [OrdMap.weight_eq_getD (fun _ v => v) _ b (d := 0) rfl,
    OrdMap.weight_eq_getD (fun _ v => v) _ b (d := 0) rfl] at htotal

theorem entrada (h : Retoca a b g g') : Arestas.entrada g' b + peso g a b =
    Arestas.entrada g b + peso g' a b := h.outras.entrada b

theorem entrada_de_outro (h : Retoca a b g g') {b' : κ} (hb : b' ≠ b) :
    Arestas.entrada g' b' = Arestas.entrada g b' := by
  have hmuda := h.outras.entrada b'
  have hpeso : peso g' a b' = peso g a b' := by
    unfold peso OrdMap.getD
    rw [h.linha b' hb]
  omega

/-- The edges of a node whose map was written at the other end. -/
theorem of_linha {m : OrdMap κ ℕ} (hm : ∀ b' ≠ b, m.get? b' = (Arestas.linha g a).get? b') :
    Retoca a b g (g.insert a m) := by
  refine ⟨mudaDe_insert g a m, ?_⟩
  intro b' hb
  rw [linha_insert]
  exact hm b' hb

end Retoca

/-- Every edge has a weight and joins two nodes, and no node keeps an empty map. -/
structure Arrumada (g : OrdMap κ (OrdMap κ ℕ)) : Prop where
  aresta : ∀ a b v, (linha g a).get? b = some v → 0 < v ∧ b ≠ a
  cheia : ∀ a m, g.get? a = some m → m.entries ≠ []

theorem linha_eq {m : OrdMap κ ℕ} (h : g.get? a = some m) : linha g a = m := by
  unfold linha OrdMap.getD
  rw [h, Option.getD_some]

/-- An edge with a weight joins two nodes. -/
theorem Arrumada.outro (h : Arrumada g) (hpeso : 0 < peso g a b) : b ≠ a := by
  unfold peso OrdMap.getD at hpeso
  cases hv : (linha g a).get? b with
  | none =>
    rw [hv] at hpeso
    exact absurd hpeso (lt_irrefl 0)
  | some v => exact (h.aresta a b v hv).2

/-- The map of one node is written. -/
theorem Arrumada.muda (h : Arrumada g) (hmuda : MudaDe a g g')
    (haresta : ∀ b v, (linha g' a).get? b = some v → 0 < v ∧ b ≠ a)
    (hcheia : ∀ m, g'.get? a = some m → m.entries ≠ []) : Arrumada g' := by
  constructor
  · intro a' b v hv
    by_cases ha : a' = a
    · rw [ha] at hv ⊢
      exact haresta b v hv
    · rw [hmuda.linha ha] at hv
      exact h.aresta a' b v hv
  · intro a' m hm
    by_cases ha : a' = a
    · exact hcheia m (ha ▸ hm)
    · rw [hmuda a' ha] at hm
      exact h.cheia a' m hm

theorem Arrumada.insert (h : Arrumada g) {v : ℕ} (hv : 0 < v) (hb : b ≠ a) :
    Arrumada (g.insert a ((linha g a).insert b v)) := by
  apply h.muda (mudaDe_insert g a _)
  · intro b' v' hv'
    rw [linha_insert, OrdMap.get?_insert] at hv'
    split_ifs at hv' with hb'
    · cases hv'
      rw [hb']
      exact ⟨hv, hb⟩
    · exact h.aresta a b' v' hv'
  · intro m hm hvazia
    rw [OrdMap.get?_insert_self] at hm
    cases hm
    have hnada : ((linha g a).insert b v).get? b = none := by
      unfold OrdMap.get?
      rw [hvazia]
      rfl
    rw [OrdMap.get?_insert_self] at hnada
    cases hnada

end Arestas

/-! ## From the front -/

section Frente

variable {α : Type*} {f : α → ℕ} {g : α → ℕ → α} {n : ℕ} {us vs : List α}

/-- An amount left the front of a list: whole items, then a part of the next one. -/
inductive SaiDaFrente (f : α → ℕ) (g : α → ℕ → α) : ℕ → List α → List α → Prop
  | nada (us : List α) : SaiDaFrente f g 0 us us
  | parte {n : ℕ} {u : α} {us : List α} (hn : 0 < n) (h : n < f u) :
      SaiDaFrente f g n (u :: us) (g u (f u - n) :: us)
  | inteiro {n : ℕ} {u : α} {us vs : List α} (hn : 0 < f u + n) (h : SaiDaFrente f g n us vs) :
      SaiDaFrente f g (f u + n) (u :: us) vs

/-- What left is what is missing. -/
theorem SaiDaFrente.sum (hg : ∀ u m, f (g u m) = m) (h : SaiDaFrente f g n us vs) :
    (vs.map f).sum + n = (us.map f).sum := by
  induction h with
  | nada us => exact Nat.add_zero _
  | parte hn h =>
    rw [List.map_cons, List.map_cons, List.sum_cons, List.sum_cons, hg]
    omega
  | inteiro hn h ih =>
    rw [List.map_cons, List.sum_cons]
    omega

/-- What holds of every item and of its parts holds of every item that stays. -/
theorem SaiDaFrente.forall_mem {P : α → Prop} (h : SaiDaFrente f g n us vs) (hus : ∀ u ∈ us, P u)
    (hparte : ∀ u m, 0 < m → P u → P (g u m)) : ∀ v ∈ vs, P v := by
  induction h with
  | nada us => exact hus
  | parte hn h =>
    intro v hv
    rcases List.mem_cons.mp hv with rfl | hv
    · exact hparte _ _ (Nat.sub_pos_of_lt h) (hus _ List.mem_cons_self)
    · exact hus v (List.mem_cons_of_mem _ hv)
  | inteiro hn h ih => exact ih fun v hv => hus v (List.mem_cons_of_mem _ hv)

/-- No kind of items has more than it had. -/
theorem SaiDaFrente.sum_filter_le {P : α → Bool} (hf : ∀ u m, f (g u m) = m)
    (hP : ∀ u m, P (g u m) = P u) (h : SaiDaFrente f g n us vs) :
    ((vs.filter P).map f).sum ≤ ((us.filter P).map f).sum := by
  induction h with
  | nada us => exact le_refl _
  | @parte n u us hn h =>
    rw [List.filter_cons, List.filter_cons, hP]
    split_ifs
    · rw [List.map_cons, List.map_cons, List.sum_cons, List.sum_cons, hf]
      exact Nat.add_le_add_right (Nat.sub_le _ _) _
    · exact le_refl _
  | @inteiro n u us vs hn h ih =>
    rw [List.filter_cons]
    split_ifs
    · rw [List.map_cons, List.sum_cons]
      exact ih.trans (Nat.le_add_left _ _)
    · exact ih

theorem SaiDaFrente.length_le (h : SaiDaFrente f g n us vs) : vs.length ≤ us.length := by
  induction h with
  | nada us => exact le_refl _
  | parte hn h => exact le_refl _
  | inteiro hn h ih => exact ih.trans (Nat.le_succ _)

end Frente

end Base
