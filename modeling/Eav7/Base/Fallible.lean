import Mathlib.Logic.Basic

/-!
# Reasoning about fallible state operations

An operation that returns an error keeps whatever it wrote before failing.
`Runs` follows one run from a state: a normal return satisfies `Q`, a failure
satisfies `E`. `Atomic` is the case where a failure must leave the state of the
call untouched, under a condition `P` that rules out the late failures.
-/

namespace Base

variable {ε σ α β : Type}

def Runs (m : EStateM ε σ α) (s : σ) (Q : α → σ → Prop) (E : ε → σ → Prop) : Prop :=
  match m s with
  | .ok a s' => Q a s'
  | .error e s' => E e s'

/-- Runs an `Except` computation, which reads nothing and writes nothing. -/
def lift : Except ε α → EStateM ε σ α
  | .ok a => pure a
  | .error e => throw e

instance liftExcept : MonadLift (Except ε) (EStateM ε σ) := ⟨lift⟩

@[simp] theorem lift_ok (a : α) (s : σ) : (lift (.ok a) : EStateM ε σ α) s = .ok a s := rfl

@[simp] theorem lift_error (e : ε) (s : σ) :
    (lift (.error e) : EStateM ε σ α) s = .error e s := rfl

namespace Runs

variable {Q : β → σ → Prop} {E : ε → σ → Prop} {s s' : σ}

theorem ok {m : EStateM ε σ β} {b : β} (h : Runs m s Q E) (hm : m s = .ok b s') : Q b s' := by
  simpa only [Runs, hm] using h

theorem error {m : EStateM ε σ β} {e : ε} (h : Runs m s Q E) (hm : m s = .error e s') :
    E e s' := by
  simpa only [Runs, hm] using h

theorem intro {m : EStateM ε σ β} (hok : ∀ b s', m s = .ok b s' → Q b s')
    (herr : ∀ e s', m s = .error e s' → E e s') : Runs m s Q E := by
  unfold Runs
  cases hm : m s with
  | ok b s' => exact hok b s' hm
  | error e s' => exact herr e s' hm

theorem mono {m : EStateM ε σ β} {Q' : β → σ → Prop} {E' : ε → σ → Prop} (h : Runs m s Q E)
    (hQ : ∀ b s', Q b s' → Q' b s') (hE : ∀ e s', E e s' → E' e s') : Runs m s Q' E' :=
  intro (fun b s' hm => hQ b s' (h.ok hm)) fun e s' hm => hE e s' (h.error hm)

theorem bind {m : EStateM ε σ α} {f : α → EStateM ε σ β}
    (h : Runs m s (fun a s' => Runs (f a) s' Q E) E) : Runs (m >>= f) s Q E := by
  unfold Runs at *
  change match EStateM.bind m f s with | .ok a s' => Q a s' | .error e s' => E e s'
  unfold EStateM.bind
  cases hm : m s with
  | ok a s' => simpa only [hm] using h
  | error e s' => simpa only [hm] using h

theorem pure_intro {b : β} (h : Q b s) : Runs (pure b : EStateM ε σ β) s Q E := h

theorem throw_intro {e : ε} (h : E e s) : Runs (throw e : EStateM ε σ β) s Q E := h

theorem modify_intro {g : σ → σ} {Q : PUnit → σ → Prop} (h : Q ⟨⟩ (g s)) :
    Runs (modify g : EStateM ε σ PUnit) s Q E := h

theorem set_intro {t : σ} {Q : PUnit → σ → Prop} (h : Q ⟨⟩ t) :
    Runs (set t : EStateM ε σ PUnit) s Q E := h

theorem get_bind {f : σ → EStateM ε σ β} (h : Runs (f s) s Q E) : Runs (get >>= f) s Q E :=
  bind (m := get) h

theorem modify_bind {g : σ → σ} {f : PUnit → EStateM ε σ β} (h : Runs (f ⟨⟩) (g s) Q E) :
    Runs (modify g >>= f) s Q E :=
  bind (m := modify g) h

theorem set_bind {t : σ} {f : PUnit → EStateM ε σ β} (h : Runs (f ⟨⟩) t Q E) :
    Runs ((set t : EStateM ε σ PUnit) >>= f) s Q E :=
  bind (m := set t) h

theorem lift_intro {x : Except ε β} (hok : ∀ b, x = .ok b → Q b s)
    (herr : ∀ e, x = .error e → E e s) : Runs (lift x : EStateM ε σ β) s Q E := by
  cases x with
  | ok b => exact hok b rfl
  | error e => exact herr e rfl

/-- A check that is known to pass. -/
theorem lift_bind_ok {x : Except ε α} {f : α → EStateM ε σ β} {a : α} (hx : x = .ok a)
    (h : Runs (f a) s Q E) : Runs (lift x >>= f) s Q E := by
  subst hx
  exact h

theorem ite {c : Prop} [Decidable c] {m m' : EStateM ε σ β} (h : c → Runs m s Q E)
    (h' : ¬ c → Runs m' s Q E) : Runs (if c then m else m') s Q E := by
  by_cases hc : c
  · rw [if_pos hc]
    exact h hc
  · rw [if_neg hc]
    exact h' hc

end Runs

/-- Under `P`, a failure of `m` run from `s` leaves the state at `s₀`; a normal
return satisfies `Q` with no condition. -/
def Atomic (P : Prop) (s₀ : σ) (m : EStateM ε σ α) (s : σ) (Q : α → σ → Prop) : Prop :=
  Runs m s Q fun _ s' => P → s' = s₀

-- A specification is used through its rules, never by running its program.
attribute [irreducible] Runs

/-! ## Reading a run back -/

theorem bind_eq_ok {m : EStateM ε σ α} {f : α → EStateM ε σ β} {s s' : σ} {b : β} :
    (m >>= f) s = .ok b s' ↔ ∃ a t, m s = .ok a t ∧ f a t = .ok b s' := by
  change EStateM.bind m f s = .ok b s' ↔ _
  unfold EStateM.bind
  cases m s with
  | ok a t =>
    constructor
    · intro h
      exact ⟨a, t, rfl, h⟩
    · rintro ⟨_, _, ⟨⟩, h⟩
      exact h
  | error e t => simp

theorem bind_eq_error {m : EStateM ε σ α} {f : α → EStateM ε σ β} {s s' : σ} {e : ε} :
    (m >>= f) s = .error e s' ↔
      m s = .error e s' ∨ ∃ a t, m s = .ok a t ∧ f a t = .error e s' := by
  change EStateM.bind m f s = .error e s' ↔ _
  unfold EStateM.bind
  cases m s with
  | ok a t =>
    constructor
    · intro h
      exact .inr ⟨a, t, rfl, h⟩
    · rintro (⟨⟨⟩⟩ | ⟨_, _, ⟨⟩, h⟩)
      exact h
  | error e' t => simp

theorem bind_run_ok {m : EStateM ε σ α} {s t : σ} {a : α} (h : m s = .ok a t)
    (f : α → EStateM ε σ β) : (m >>= f) s = f a t := by
  change EStateM.bind m f s = _
  unfold EStateM.bind
  rw [h]

theorem bind_run_error {m : EStateM ε σ α} {s t : σ} {e : ε} (h : m s = .error e t)
    (f : α → EStateM ε σ β) : (m >>= f) s = .error e t := by
  change EStateM.bind m f s = _
  unfold EStateM.bind
  rw [h]

theorem lift_eq_ok {x : Except ε α} {s s' : σ} {a : α} :
    (lift x : EStateM ε σ α) s = .ok a s' ↔ x = .ok a ∧ s' = s := by
  cases x with
  | ok b => simp [eq_comm]
  | error e => simp

/-- A computation that only reads, before the rest of the run. -/
theorem lift_bind_eq_ok {x : Except ε α} {f : α → EStateM ε σ β} {s t : σ} {b : β} :
    ((lift x : EStateM ε σ α) >>= f) s = .ok b t ↔ ∃ a, x = .ok a ∧ f a s = .ok b t := by
  rw [bind_eq_ok]
  constructor
  · rintro ⟨a, s', hlift, h⟩
    obtain ⟨hx, rfl⟩ := lift_eq_ok.mp hlift
    exact ⟨a, hx, h⟩
  · rintro ⟨a, hx, h⟩
    exact ⟨a, s, lift_eq_ok.mpr ⟨hx, rfl⟩, h⟩

theorem lift_eq_error {x : Except ε α} {s s' : σ} {e : ε} :
    (lift x : EStateM ε σ α) s = .error e s' ↔ x = .error e ∧ s' = s := by
  cases x with
  | ok b => simp
  | error e' => simp [eq_comm]

theorem pure_eq_ok {s s' : σ} {a b : α} :
    (pure a : EStateM ε σ α) s = .ok b s' ↔ b = a ∧ s' = s := by
  change EStateM.Result.ok a s = .ok b s' ↔ _
  simp [eq_comm]

theorem get_bind_run {f : σ → EStateM ε σ β} (s : σ) : (get >>= f) s = f s s := rfl

theorem modify_bind_run {g : σ → σ} {f : PUnit → EStateM ε σ β} (s : σ) :
    (modify g >>= f) s = f ⟨⟩ (g s) := rfl

theorem lift_bind_run {x : Except ε α} {f : α → EStateM ε σ β} {a : α} (h : x = .ok a) (s : σ) :
    (liftM x >>= f : EStateM ε σ β) s = f a s := by
  rw [h]
  rfl

theorem set_bind_run {t : σ} {f : PUnit → EStateM ε σ β} (s : σ) :
    ((set t : EStateM ε σ PUnit) >>= f) s = f ⟨⟩ t := rfl

theorem except_bind_eq_ok {x : Except ε α} {f : α → Except ε β} {b : β} :
    (x >>= f) = .ok b ↔ ∃ a, x = .ok a ∧ f a = .ok b := by
  cases x with
  | ok a =>
    change f a = .ok b ↔ _
    simp
  | error e =>
    change Except.error e = .ok b ↔ _
    simp

/-! ## Operations that fail without a trace -/

namespace Atomic

variable {P : Prop} {s₀ s : σ} {Q : β → σ → Prop}

theorem mono {m : EStateM ε σ β} {Q' : β → σ → Prop} (h : Atomic P s₀ m s Q)
    (hQ : ∀ b s', Q b s' → Q' b s') : Atomic P s₀ m s Q' :=
  Runs.mono h hQ fun _ _ => id

theorem pure_intro {b : β} (h : Q b s) : Atomic P s₀ (pure b : EStateM ε σ β) s Q :=
  Runs.pure_intro h

theorem throw_intro (e : ε) : Atomic P s (throw e : EStateM ε σ β) s Q :=
  Runs.throw_intro fun _ => rfl

theorem bind {m : EStateM ε σ α} {f : α → EStateM ε σ β}
    (h : Atomic P s₀ m s fun a s' => Atomic P s₀ (f a) s' Q) : Atomic P s₀ (m >>= f) s Q :=
  Runs.bind h

/-- Follows a call by its own specification. -/
theorem call {m : EStateM ε σ α} {f : α → EStateM ε σ β} {R : α → σ → Prop}
    (hm : Atomic P s₀ m s R) (h : ∀ a s', R a s' → Atomic P s₀ (f a) s' Q) :
    Atomic P s₀ (m >>= f) s Q :=
  bind (hm.mono h)

theorem get_bind {f : σ → EStateM ε σ β} (h : Atomic P s₀ (f s) s Q) :
    Atomic P s₀ (get >>= f) s Q :=
  Runs.get_bind h

theorem modify_bind {g : σ → σ} {f : PUnit → EStateM ε σ β}
    (h : Atomic P s₀ (f ⟨⟩) (g s) Q) : Atomic P s₀ (modify g >>= f) s Q :=
  Runs.modify_bind h

theorem set_bind {t : σ} {f : PUnit → EStateM ε σ β} (h : Atomic P s₀ (f ⟨⟩) t Q) :
    Atomic P s₀ ((set t : EStateM ε σ PUnit) >>= f) s Q :=
  Runs.set_bind h

theorem modify_intro {g : σ → σ} {Q : PUnit → σ → Prop} (h : Q ⟨⟩ (g s)) :
    Atomic P s₀ (modify g : EStateM ε σ PUnit) s Q :=
  Runs.modify_intro h

/-- A check that reads the initial state may fail at once. -/
theorem lift_bind {x : Except ε α} {f : α → EStateM ε σ β}
    (h : ∀ a, x = .ok a → Atomic P s (f a) s Q) : Atomic P s (lift x >>= f) s Q :=
  bind (Runs.lift_intro h fun _ _ _ => rfl)

theorem lift_intro {x : Except ε β} (h : ∀ b, x = .ok b → Q b s) :
    Atomic P s (lift x : EStateM ε σ β) s Q :=
  Runs.lift_intro h fun _ _ _ => rfl

theorem ite {c : Prop} [Decidable c] {m m' : EStateM ε σ β}
    (h : c → Atomic P s₀ m s Q) (h' : ¬ c → Atomic P s₀ m' s Q) :
    Atomic P s₀ (if c then m else m') s Q :=
  Runs.ite h h'

end Atomic
end Base
