import Mathlib.Algebra.BigOperators.Group.List.Basic
import Mathlib.Data.Nat.Notation

/-!
# Work cut in slices

Slices of a list go to threads, and each thread writes the result of each of its items in the
slot of that item. No two threads share a slot, so the slots end up the same whatever thread
runs at each moment.
-/

namespace Base.Fatias

variable {α β : Type}

/-- Slices of a length, the last one maybe shorter. -/
def fatias (k : ℕ) (xs : List α) : List (List α) :=
  if _h : k = 0 ∨ xs = [] then [] else xs.take k :: fatias k (xs.drop k)
termination_by xs.length
decreasing_by
  have := List.length_pos_of_ne_nil (not_or.mp _h).2
  rw [List.length_drop]
  omega

/-- The items of a list with their slots. -/
def tarefas (xs : List α) : List (ℕ × α) := xs.zipIdx.map Prod.swap

/-- The threads that still have an item. -/
def vivas (threads : List (List (ℕ × α))) : List (List (ℕ × α)) := threads.filter (! ·.isEmpty)

/-- Runs so many items. At each moment the agenda picks one of the threads that are not done. -/
def roda (f : α → β) (agenda : ℕ → ℕ) : ℕ → List (List (ℕ × α)) → List β → List β
  | 0, _, escritas => escritas
  | n + 1, threads, escritas =>
    let t := agenda n % (vivas threads).length
    match (vivas threads)[t]? with
    | some ((i, x) :: resto) =>
      roda f agenda n ((vivas threads).set t resto) (escritas.set i (f x))
    | _ => escritas

/-- Runs the threads to their end. -/
def executa (f : α → β) (agenda : ℕ → ℕ) (threads : List (List (ℕ × α))) (escritas : List β) :
    List β :=
  roda f agenda threads.flatten.length threads escritas

theorem flatten_fatias {k : ℕ} (hk : 0 < k) (xs : List α) : (fatias k xs).flatten = xs := by
  induction hn : xs.length using Nat.strongRecOn generalizing xs with
  | ind n ih =>
    unfold fatias
    split_ifs with h
    · rw [h.resolve_left (by omega)]
      rfl
    · have hpos := List.length_pos_of_ne_nil (not_or.mp h).2
      have hresto : (xs.drop k).length < n := by
        rw [List.length_drop]
        omega
      rw [List.flatten_cons, ih _ hresto _ rfl, List.take_append_drop]

theorem mem_tarefas {xs : List α} {i : ℕ} {x : α} : (i, x) ∈ tarefas xs ↔ xs[i]? = some x := by
  unfold tarefas
  rw [List.mem_map]
  constructor
  · rintro ⟨⟨y, j⟩, hmem, heq⟩
    cases heq
    exact List.mem_zipIdx_iff_getElem?.mp hmem
  · intro h
    exact ⟨(x, i), List.mem_zipIdx_iff_getElem?.mpr h, rfl⟩

theorem flatten_vivas (threads : List (List (ℕ × α))) :
    (vivas threads).flatten = threads.flatten := by
  induction threads with
  | nil => rfl
  | cons t threads ih =>
    unfold vivas at ih ⊢
    rw [List.filter_cons, List.flatten_cons]
    cases t with
    | nil => exact ih
    | cons e es => exact congrArg ((e :: es) ++ ·) ih

/-- What holds while the threads run: each pending item goes to its own slot, and each slot is
written or has its item pending. -/
structure EmCurso (f : α → β) (xs : List α) (threads : List (List (ℕ × α))) (escritas : List β) :
    Prop where
  slots : escritas.length = xs.length
  suas : ∀ i x, (i, x) ∈ threads.flatten → xs[i]? = some x
  escrita : ∀ i, i < xs.length → escritas[i]? = (xs[i]?).map f ∨ ∃ x, (i, x) ∈ threads.flatten

section

variable {f : α → β} {xs : List α} {threads : List (List (ℕ × α))} {escritas : List β}

theorem EmCurso.vivas (h : EmCurso f xs threads escritas) :
    EmCurso f xs (vivas threads) escritas := by
  refine ⟨h.slots, ?_, ?_⟩
  · rw [flatten_vivas]
    exact h.suas
  · rw [flatten_vivas]
    exact h.escrita

/-- The pending items are the one that runs and the others. -/
theorem flatten_set {t i : ℕ} {x : α} {resto : List (ℕ × α)}
    (ht : threads[t]? = some ((i, x) :: resto)) :
    List.Perm threads.flatten ((i, x) :: (threads.set t resto).flatten) := by
  obtain ⟨hlt, hget⟩ := List.getElem?_eq_some_iff.mp ht
  have hantes : threads = threads.take t ++ ((i, x) :: resto) :: threads.drop (t + 1) := by
    rw [← hget, List.getElem_cons_drop, List.take_append_drop]
  have hdepois : threads.set t resto = threads.take t ++ resto :: threads.drop (t + 1) :=
    List.set_eq_take_append_cons_drop.trans (if_pos hlt)
  rw [hdepois]
  conv_lhs => rw [hantes]
  rw [List.flatten_append, List.flatten_append, List.flatten_cons, List.flatten_cons,
    List.cons_append]
  exact List.perm_middle

theorem EmCurso.passo {t i : ℕ} {x : α} {resto : List (ℕ × α)}
    (h : EmCurso f xs threads escritas) (ht : threads[t]? = some ((i, x) :: resto)) :
    EmCurso f xs (threads.set t resto) (escritas.set i (f x)) := by
  have hperm := flatten_set ht
  have hx : xs[i]? = some x := h.suas i x (hperm.mem_iff.mpr List.mem_cons_self)
  refine ⟨by rw [List.length_set, h.slots], ?_, ?_⟩
  · exact fun j y hj => h.suas j y (hperm.mem_iff.mpr (List.mem_cons_of_mem _ hj))
  · intro j hj
    by_cases hij : i = j
    · subst hij
      refine .inl ?_
      rw [List.getElem?_set_self (by rwa [h.slots]), hx, Option.map_some]
    · rw [List.getElem?_set_ne hij]
      rcases h.escrita j hj with hescrita | ⟨y, hy⟩
      · exact .inl hescrita
      · rcases List.mem_cons.mp (hperm.mem_iff.mp hy) with heq | hmem
        · cases heq
          exact absurd rfl hij
        · exact .inr ⟨y, hmem⟩

theorem EmCurso.fim (h : EmCurso f xs threads escritas) (hvazia : threads.flatten = []) :
    escritas = xs.map f := by
  refine List.ext_getElem? fun i => ?_
  rw [List.getElem?_map]
  by_cases hi : i < xs.length
  · refine (h.escrita i hi).resolve_right ?_
    rintro ⟨x, hx⟩
    rw [hvazia] at hx
    cases hx
  · rw [List.getElem?_eq_none (by rw [h.slots]; omega), List.getElem?_eq_none (by omega)]
    rfl

theorem EmCurso.roda {agenda : ℕ → ℕ} {n : ℕ} (h : EmCurso f xs threads escritas)
    (hn : threads.flatten.length = n) : Fatias.roda f agenda n threads escritas = xs.map f := by
  induction n generalizing threads escritas with
  | zero => exact h.fim (List.length_eq_zero_iff.mp hn)
  | succ n ih =>
    have hvivas : Fatias.vivas threads ≠ [] := by
      intro hvazia
      rw [← flatten_vivas, hvazia] at hn
      cases hn
    have hlt := Nat.mod_lt (agenda n) (List.length_pos_of_ne_nil hvivas)
    obtain ⟨thread, hthread⟩ :
        ∃ thread, (Fatias.vivas threads)[agenda n % (Fatias.vivas threads).length]? = some thread :=
      ⟨_, List.getElem?_eq_getElem hlt⟩
    have hcheia : thread ≠ [] := by
      have hviva := (List.mem_filter.mp (List.mem_of_getElem? hthread)).2
      rintro rfl
      cases hviva
    obtain ⟨⟨i, x⟩, resto, rfl⟩ := List.exists_cons_of_ne_nil hcheia
    unfold Fatias.roda
    dsimp only
    rw [hthread]
    refine ih (h.vivas.passo hthread) ?_
    have hperm := (flatten_set hthread).length_eq
    rw [flatten_vivas, hn] at hperm
    exact (Nat.succ.inj hperm).symm

/-- Whatever the agenda, the threads write what each item gives. -/
theorem executa_fatias {agenda : ℕ → ℕ} {k : ℕ} (hk : 0 < k) (hslots : escritas.length = xs.length) :
    executa f agenda (fatias k (tarefas xs)) escritas = xs.map f := by
  have hinicio : EmCurso f xs (fatias k (tarefas xs)) escritas := by
    refine ⟨hslots, ?_, ?_⟩
    · rw [flatten_fatias hk]
      exact fun i x => mem_tarefas.mp
    · intro i hi
      rw [flatten_fatias hk]
      exact .inr ⟨xs[i], mem_tarefas.mpr (List.getElem?_eq_getElem hi)⟩
  exact hinicio.roda rfl

end

end Base.Fatias
