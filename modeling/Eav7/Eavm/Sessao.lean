import Eav7.Eavm.Isolamento

/-!
# Sessions on a world

A session runs any sequence of writes, snapshots and reverts on a world, and
remembers at which host each live snapshot was taken. Reverting to a snapshot
closes those taken after it and gives back the view of that host.
-/

namespace Eav7
namespace Eavm

open Base

section

variable {σ V : Type}

/-- The writes of a host. The transient storage is not part of the world. -/
inductive Operacao where
  | setStorage (a : Address) (k v : Word)
  | tstore (a : Address) (k v : Word)
  | putCode (a : Address) (code : Bytes)
  | moveValue (de para : Address) (value : Word) (kind : TransferKind)
  | bumpNonce (a : Address)

def Operacao.aplica (w : World σ) (s : EavmHost σ) : Operacao → EavmHost σ
  | setStorage a k v => { s with world := w.setStorage s.world a k v }
  | tstore a k v => { s with
      transient := fun b l => if b = a ∧ l = k then v else s.transient b l }
  | putCode a code => { s with world := w.putCode s.world a code }
  | moveValue de para value kind =>
    { s with world := (w.moveValue s.world de para value kind).2 }
  | bumpNonce a => { s with world := (w.bumpNonce s.world a).2 }

/-- A revert names a live snapshot by its position, the latest being the first. -/
inductive Evento where
  | opera (o : Operacao)
  | snapshot
  | revert (i : ℕ)

/-- The present host, and for each live snapshot its mark and the host it was
taken at. -/
structure Sessao (σ : Type) where
  host : EavmHost σ
  abertos : List (ℕ × EavmHost σ) := []

namespace Sessao

/-- One event. There is none for a revert to a snapshot that is not live. -/
def passo (w : World σ) (x : Sessao σ) : Evento → Option (Sessao σ)
  | .opera o => some { x with host := o.aplica w x.host }
  | .snapshot => some
    { host := { x.host with world := (w.snapshot x.host.world).2 }
      abertos := ((w.snapshot x.host.world).1, x.host) :: x.abertos }
  | .revert i =>
    match x.abertos.drop i with
    | [] => none
    | (m, s) :: resto => some
      { host := { x.host with world := w.revert x.host.world m }, abertos := (m, s) :: resto }

def corre (w : World σ) : List Evento → Sessao σ → Option (Sessao σ)
  | [], x => some x
  | e :: es, x => (x.passo w e).bind (corre w es)

variable {w : World σ} {d : Diario σ V} {x y : Sessao σ}

/-- Every live mark leads to the view of its snapshot, and later marks are deeper. -/
structure Fiel (d : Diario σ V) (x : Sessao σ) : Prop where
  dentro : ∀ a ∈ x.abertos, a.1 ≤ d.prof x.host.world
  volta : ∀ a ∈ x.abertos, d.volta x.host.world a.1 = d.ver a.2.world
  ordem : x.abertos.Pairwise fun a b => b.1 ≤ a.1

theorem aplica_preserva (hj : Journaled w d) (o : Operacao) (s : EavmHost σ) :
    d.Preserva s.world (o.aplica w s).world := by
  cases o with
  | setStorage a k v => exact hj.setStorage _ _ _ _
  | tstore a k v => exact Diario.Preserva.refl _
  | putCode a code => exact hj.putCode _ _ _
  | moveValue de para value kind => exact hj.moveValue _ _ _ _ _
  | bumpNonce a => exact hj.bumpNonce _ _

/-- More journal keeps the marks. -/
theorem Fiel.avanca {s : EavmHost σ} (h : Fiel d x) (hp : d.Preserva x.host.world s.world) :
    Fiel d { x with host := s } where
  dentro a ha := Nat.le_trans (h.dentro a ha) hp.prof
  volta a ha := (hp.volta a.1 (h.dentro a ha)).trans (h.volta a ha)
  ordem := h.ordem

theorem Fiel.snapshot (hj : Journaled w d) (h : Fiel d x) :
    Fiel d { host := { x.host with world := (w.snapshot x.host.world).2 }
             abertos := ((w.snapshot x.host.world).1, x.host) :: x.abertos } := by
  have hm := hj.snapshot x.host.world
  have hx := h.avanca (s := { x.host with world := (w.snapshot x.host.world).2 }) hm.preserva
  refine ⟨?_, ?_, ?_⟩
  · exact List.forall_mem_cons.mpr ⟨hm.dentro, hx.dentro⟩
  · exact List.forall_mem_cons.mpr ⟨hm.volta, hx.volta⟩
  · exact List.pairwise_cons.mpr ⟨fun a ha => Nat.le_trans (h.dentro a ha) hm.depois, h.ordem⟩

/-- A revert undoes to its mark, which stays live. -/
theorem Fiel.revert (hj : Journaled w d) (h : Fiel d x) {i m : ℕ} {s : EavmHost σ}
    {resto : List (ℕ × EavmHost σ)} (hi : x.abertos.drop i = (m, s) :: resto) :
    d.ver (w.revert x.host.world m) = d.ver s.world ∧
      Fiel d { host := { x.host with world := w.revert x.host.world m }
               abertos := (m, s) :: resto } := by
  have hsub : ∀ a ∈ (m, s) :: resto, a ∈ x.abertos := fun a ha =>
    List.mem_of_mem_drop (hi ▸ ha)
  have hordem : ((m, s) :: resto).Pairwise fun a b => b.1 ≤ a.1 :=
    hi ▸ h.ordem.sublist (List.drop_sublist i x.abertos)
  have hm := hsub (m, s) List.mem_cons_self
  have hu := hj.revert x.host.world m (h.dentro _ hm)
  have hate : ∀ a ∈ (m, s) :: resto, a.1 ≤ m :=
    List.forall_mem_cons.mpr ⟨Nat.le_refl m, (List.pairwise_cons.mp hordem).1⟩
  refine ⟨hu.ver.trans (h.volta _ hm), fun a ha => ?_, fun a ha => ?_, hordem⟩
  · exact Nat.le_trans (hate a ha) hu.dentro
  · exact (hu.volta a.1 (hate a ha)).trans (h.volta a (hsub a ha))

theorem passo_fiel (hj : Journaled w d) {e : Evento} (h : Fiel d x) (hp : x.passo w e = some y) :
    Fiel d y := by
  cases e with
  | opera o =>
    cases hp
    exact h.avanca (aplica_preserva hj o x.host)
  | snapshot =>
    cases hp
    exact h.snapshot hj
  | revert i =>
    simp only [passo] at hp
    split at hp
    case h_1 => cases hp
    case h_2 m s resto hi =>
      cases hp
      exact (h.revert hj hi).2

theorem corre_fiel (hj : Journaled w d) {es : List Evento} :
    ∀ {x y : Sessao σ}, Fiel d x → corre w es x = some y → Fiel d y := by
  induction es with
  | nil =>
    rintro x y h ⟨⟩
    exact h
  | cons e es ih =>
    intro x y h hrun
    obtain ⟨z, hz, hrun⟩ := Option.bind_eq_some_iff.mp hrun
    exact ih (passo_fiel hj h hz) hrun

theorem fiel_inicial (s : EavmHost σ) : Fiel d { host := s } where
  dentro _ ha := absurd ha List.not_mem_nil
  volta _ ha := absurd ha List.not_mem_nil
  ordem := List.Pairwise.nil

/-- After any run, a revert gives back the view of the snapshot it names. -/
theorem revert_restaura (hj : Journaled w d) {s t : EavmHost σ} {es : List Evento} {i m : ℕ}
    (hrun : corre w es { host := s } = some x) (hi : x.abertos[i]? = some (m, t)) :
    ∃ y, x.passo w (.revert i) = some y ∧ d.ver y.host.world = d.ver t.world := by
  obtain ⟨hlt, hget⟩ := List.getElem?_eq_some_iff.mp hi
  have hdrop : x.abertos.drop i = (m, t) :: x.abertos.drop (i + 1) := by
    rw [List.drop_eq_getElem_cons hlt, hget]
  refine ⟨_, by simp only [passo, hdrop]; rfl, ?_⟩
  exact ((corre_fiel hj (fiel_inicial s) hrun).revert hj hdrop).1

end Sessao

end

end Eavm
end Eav7
