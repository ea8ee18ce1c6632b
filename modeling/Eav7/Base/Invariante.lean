import Eav7.Base.Fallible

/-!
# Invariants of stateful computations

A computation keeps an invariant when it holds after every run that starts from
it, in success and in failure. The rules follow the shape of a program.
-/

namespace Base

variable {ε σ α β : Type}

def Mantem (I : σ → Prop) (m : EStateM ε σ α) : Prop :=
  ∀ s, I s → Runs m s (fun _ t => I t) fun _ t => I t

namespace Mantem

variable {I : σ → Prop}

theorem bind {m : EStateM ε σ α} {f : α → EStateM ε σ β} (hm : Mantem I m)
    (hf : ∀ a, Mantem I (f a)) : Mantem I (m >>= f) := fun s hs =>
  Runs.bind ((hm s hs).mono (fun a t ht => hf a t ht) fun _ _ ht => ht)

theorem pure_intro (a : α) : Mantem I (pure a : EStateM ε σ α) := fun _ hs => Runs.pure_intro hs

theorem lift_intro (x : Except ε α) : Mantem I (lift x : EStateM ε σ α) := fun _ hs =>
  Runs.lift_intro (fun _ _ => hs) fun _ _ => hs

/-- A check reads and writes nothing. -/
theorem lift_bind {x : Except ε α} {f : α → EStateM ε σ β} (hf : ∀ a, Mantem I (f a)) :
    Mantem I (liftM x >>= f) := bind (lift_intro x) hf

/-- A check, whose outcome the rest of the program may use. -/
theorem conferir {x : Except ε α} {f : α → EStateM ε σ β} (hf : ∀ a, x = .ok a → Mantem I (f a)) :
    Mantem I (liftM x >>= f) := fun s hs =>
  Runs.bind (Runs.lift_intro (fun a ha => hf a ha s hs) fun _ _ => hs)

theorem get_bind {f : σ → EStateM ε σ β} (hf : ∀ s, I s → Mantem I (f s)) :
    Mantem I (get >>= f) := fun s hs => Runs.get_bind (hf s hs s hs)

theorem set_intro {t : σ} (ht : I t) : Mantem I (set t : EStateM ε σ PUnit) := fun _ _ =>
  Runs.set_intro ht

theorem set_bind {t : σ} {f : PUnit → EStateM ε σ β} (ht : I t) (hf : Mantem I (f ⟨⟩)) :
    Mantem I ((set t : EStateM ε σ PUnit) >>= f) := bind (set_intro ht) fun _ => hf

theorem modify_intro {g : σ → σ} (hg : ∀ s, I s → I (g s)) :
    Mantem I (modify g : EStateM ε σ PUnit) := fun s hs => Runs.modify_intro (hg s hs)

theorem modify_bind {g : σ → σ} {f : PUnit → EStateM ε σ β} (hg : ∀ s, I s → I (g s))
    (hf : Mantem I (f ⟨⟩)) : Mantem I (modify g >>= f) := bind (modify_intro hg) fun _ => hf

theorem ite {c : Prop} [Decidable c] {m m' : EStateM ε σ α} (h : Mantem I m) (h' : Mantem I m') :
    Mantem I (if c then m else m') := fun s hs => Runs.ite (fun _ => h s hs) fun _ => h' s hs

/-- The end of a run that kept the invariant. -/
theorem ok {m : EStateM ε σ α} (h : Mantem I m) {s t : σ} {a : α} (hs : I s)
    (hm : m s = .ok a t) : I t := (h s hs).ok hm

end Mantem

/-! ## The state that a run ends in -/

/-- The state after a run, whether it succeeded or failed. -/
def fim (m : EStateM ε σ α) (s : σ) : σ :=
  match m s with
  | .ok _ t => t
  | .error _ t => t

theorem fim_eq {m : EStateM ε σ α} {s t : σ} {a : α} (h : m s = .ok a t) : fim m s = t := by
  unfold fim
  rw [h]

def conclui (m : EStateM ε σ α) (s : σ) : Bool :=
  match m s with
  | .ok _ _ => true
  | .error _ _ => false

theorem conclui_iff {m : EStateM ε σ α} {s : σ} :
    conclui m s = true ↔ ∃ a, m s = .ok a (fim m s) := by
  unfold conclui fim
  cases m s <;> simp

theorem conclui_congr {m m' : EStateM ε σ α} {s s' : σ} (h : m s = m' s') :
    conclui m s = conclui m' s' := by
  unfold conclui
  rw [h]

namespace Runs

variable {I : σ → Prop} {s : σ}

theorem fim {m : EStateM ε σ α} (h : Runs m s (fun _ t => I t) fun _ t => I t) :
    I (Base.fim m s) := by
  unfold Base.fim
  split
  case h_1 hm => exact h.ok hm
  case h_2 hm => exact h.error hm

/-- A check, whose outcome the rest of the run may use. -/
theorem conferir {x : Except ε α} {f : α → EStateM ε σ β} (hs : I s)
    (hf : ∀ a, x = .ok a → Runs (f a) s (fun _ t => I t) fun _ t => I t) :
    Runs (liftM x >>= f) s (fun _ t => I t) fun _ t => I t :=
  Runs.bind (Runs.lift_intro (fun a ha => hf a ha) fun _ _ => hs)

end Runs
end Base
