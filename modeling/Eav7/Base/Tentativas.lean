import Mathlib.Data.List.Nodup
import Mathlib.Data.List.Perm.Subperm
import Mathlib.Order.Nat
import Mathlib.Tactic.Common
import Eav7.Base.Invariante

/-!
# Greedy selection on one state

Keyed items are attempted one after another on a single state, up to a limit. An item that
succeeds is selected; one that fails is passed over, and attempted again in the next sweep as
long as the sweeps select something. Nothing undoes what a failed attempt wrote, so the items
selected are known to run one after another from the first state only when every attempt that
failed left the state as it found it.
-/

namespace Base

section

variable {σ κ τ ε α : Type} (m : τ → EStateM ε σ α)

/-- Runs items one after another; the first failure stops the run. -/
def emOrdem : List τ → σ → Option σ
  | [], s => some s
  | x :: xs, s => if conclui (m x) s then emOrdem xs (fim (m x) s) else none

/-- An attempt that fails leaves the state as it found it. -/
def SemRastro (x : τ) (s : σ) : Prop := conclui (m x) s = false → fim (m x) s = s

variable {m}

theorem emOrdem_append {xs ys : List τ} {s : σ} :
    emOrdem m (xs ++ ys) s = (emOrdem m xs s).bind (emOrdem m ys) := by
  induction xs generalizing s with
  | nil => rfl
  | cons x xs ih =>
    rw [List.cons_append, emOrdem, emOrdem]
    split_ifs
    · exact ih
    · rfl

theorem emOrdem_concat {xs : List τ} {x : τ} {s t : σ} (h : emOrdem m xs s = some t)
    (hx : conclui (m x) t = true) : emOrdem m (xs ++ [x]) s = some (fim (m x) t) := by
  rw [emOrdem_append, h, Option.bind_some, emOrdem, if_pos hx, emOrdem]

theorem SemRastro.of_conclui {x : τ} {s : σ} (h : conclui (m x) s = true) : SemRastro m x s :=
  fun hfalha => absurd h (ne_true_of_eq_false hfalha)

end

/-- A selection under way: the state of the attempts, what was selected with its keys, and
whether the sweep in course selected anything. -/
structure Selecao (σ κ τ : Type) where
  sim : σ
  selecionadas : List τ
  escolhidos : List κ
  progresso : Bool

namespace Selecao

section

variable {σ κ τ ε α : Type} [DecidableEq κ] (m : τ → EStateM ε σ α) (max : ℕ)

/-- One attempt. -/
def tentar (e : κ × τ) (x : Selecao σ κ τ) : Selecao σ κ τ :=
  if conclui (m e.2) x.sim then
    { sim := fim (m e.2) x.sim
      selecionadas := x.selecionadas ++ [e.2]
      escolhidos := x.escolhidos ++ [e.1]
      progresso := true }
  else { x with sim := fim (m e.2) x.sim }

/-- One sweep over the items, which stops at the limit and skips what was selected. -/
def varrer : List (κ × τ) → Selecao σ κ τ → Selecao σ κ τ
  | [], x => x
  | e :: es, x =>
    if max ≤ x.selecionadas.length then x
    else if e.1 ∈ x.escolhidos then varrer es x
    else varrer es (x.tentar m e)

def semProgresso (x : Selecao σ κ τ) : Selecao σ κ τ := { x with progresso := false }

/-- Sweeps while the last one selected something and the limit is not reached. -/
def repetir (es : List (κ × τ)) : ℕ → Selecao σ κ τ → Selecao σ κ τ
  | 0, x => x
  | n + 1, x =>
    if x.progresso ∧ x.selecionadas.length < max then
      repetir es n (x.semProgresso.varrer m max es)
    else x

def inicial (s : σ) : Selecao σ κ τ :=
  { sim := s, selecionadas := [], escolhidos := [], progresso := true }

/-- The whole selection. Every sweep but the last selects something, so that as many sweeps
as the limit are enough. -/
def escolher (es : List (κ × τ)) (s : σ) : Selecao σ κ τ := repetir m max es max (inicial s)

/-! ## The attempts that a selection makes -/

variable (P : τ → σ → Prop)

/-- Every attempt of a sweep meets the condition, on the state it runs on. -/
def NaVarredura : List (κ × τ) → Selecao σ κ τ → Prop
  | [], _ => True
  | e :: es, x =>
    if max ≤ x.selecionadas.length then True
    else if e.1 ∈ x.escolhidos then NaVarredura es x
    else P e.2 x.sim ∧ NaVarredura es (x.tentar m e)

/-- Every attempt of the selection meets the condition. -/
def NasVarreduras (es : List (κ × τ)) : ℕ → Selecao σ κ τ → Prop
  | 0, _ => True
  | n + 1, x =>
    if x.progresso ∧ x.selecionadas.length < max then
      NaVarredura m max P es x.semProgresso ∧
        NasVarreduras es n (x.semProgresso.varrer m max es)
    else True

def NasTentativas (es : List (κ × τ)) (s : σ) : Prop :=
  NasVarreduras m max P es max (inicial s)

instance decidableNaVarredura [∀ t s, Decidable (P t s)] : ∀ (es : List (κ × τ))
    (x : Selecao σ κ τ), Decidable (NaVarredura m max P es x)
  | [], _ => .isTrue trivial
  | e :: es, x =>
    have := decidableNaVarredura es x
    have := decidableNaVarredura es (x.tentar m e)
    inferInstanceAs (Decidable (ite ..))

instance decidableNasVarreduras [∀ t s, Decidable (P t s)] (es : List (κ × τ)) :
    ∀ (n : ℕ) (x : Selecao σ κ τ), Decidable (NasVarreduras m max P es n x)
  | 0, _ => .isTrue trivial
  | n + 1, x =>
    have := decidableNasVarreduras es n (x.semProgresso.varrer m max es)
    inferInstanceAs (Decidable (ite ..))

instance decidableNasTentativas [∀ t s, Decidable (P t s)] (es : List (κ × τ)) (s : σ) :
    Decidable (NasTentativas m max P es s) :=
  inferInstanceAs (Decidable (NasVarreduras ..))

variable {m max P} {Q : τ → σ → Prop} {es : List (κ × τ)} {x : Selecao σ κ τ} {s : σ}

theorem NaVarredura.mono (h : NaVarredura m max P es x) (hPQ : ∀ t s, P t s → Q t s) :
    NaVarredura m max Q es x := by
  induction es generalizing x with
  | nil => trivial
  | cons e es ih =>
    unfold NaVarredura at h ⊢
    split_ifs at h ⊢
    · exact ih h
    · exact ⟨hPQ _ _ h.1, ih h.2⟩

theorem NasVarreduras.mono {n : ℕ} (h : NasVarreduras m max P es n x)
    (hPQ : ∀ t s, P t s → Q t s) : NasVarreduras m max Q es n x := by
  induction n generalizing x with
  | zero => trivial
  | succ n ih =>
    unfold NasVarreduras at h ⊢
    split_ifs at h ⊢
    exact ⟨h.1.mono hPQ, ih h.2⟩

theorem NasTentativas.mono (h : NasTentativas m max P es s) (hPQ : ∀ t s, P t s → Q t s) :
    NasTentativas m max Q es s :=
  NasVarreduras.mono h hPQ

theorem nasTentativas_of_forall (h : ∀ t s, P t s) : NasTentativas m max P es s := by
  have hvarredura (x : Selecao σ κ τ) : NaVarredura m max P es x := by
    induction es generalizing x with
    | nil => trivial
    | cons e es ih =>
      unfold NaVarredura
      split_ifs
      · exact ih x
      · exact ⟨h _ _, ih _⟩
  suffices ∀ n x, NasVarreduras m max P es n x from this _ _
  intro n
  induction n with
  | zero => exact fun _ => trivial
  | succ n ih =>
    intro x
    unfold NasVarreduras
    split_ifs
    exact ⟨hvarredura _, ih _⟩

/-! ## Rules -/

/-- What every attempt preserves, a sweep preserves. -/
theorem varrer_mantem {I : Selecao σ κ τ → Prop} {fs : List (κ × τ)} (hsub : fs ⊆ es)
    (htenta : ∀ e ∈ es, ∀ x, I x → x.selecionadas.length < max → e.1 ∉ x.escolhidos →
      P e.2 x.sim → I (x.tentar m e))
    (hP : NaVarredura m max P fs x) (hx : I x) : I (x.varrer m max fs) := by
  induction fs generalizing x with
  | nil => exact hx
  | cons e fs ih =>
    obtain ⟨he, hfs⟩ := List.cons_subset.mp hsub
    unfold NaVarredura at hP
    unfold varrer
    split_ifs at hP ⊢ with hcheia hescolhido
    · exact hx
    · exact ih hfs hP hx
    · exact ih hfs hP.2 (htenta e he x hx (not_le.mp hcheia) hescolhido hP.1)

/-- What every attempt preserves, the selection preserves. -/
theorem repetir_mantem {I : Selecao σ κ τ → Prop} {n : ℕ} (hzera : ∀ x, I x → I x.semProgresso)
    (htenta : ∀ e ∈ es, ∀ x, I x → x.selecionadas.length < max → e.1 ∉ x.escolhidos →
      P e.2 x.sim → I (x.tentar m e))
    (hP : NasVarreduras m max P es n x) (hx : I x) : I (repetir m max es n x) := by
  induction n generalizing x with
  | zero => exact hx
  | succ n ih =>
    unfold NasVarreduras at hP
    unfold repetir
    split_ifs at hP ⊢
    · exact ih hP.2 (varrer_mantem (List.Subset.refl es) htenta hP.1 (hzera x hx))
    · exact hx

/-! ## What is selected -/

/-- The selection never passes the limit, takes no key twice, and takes items with the keys
they are listed under. -/
structure Coerente (max : ℕ) (es : List (κ × τ)) (x : Selecao σ κ τ) : Prop where
  teto : x.selecionadas.length ≤ max
  distintos : x.escolhidos.Nodup
  pares : x.escolhidos.zip x.selecionadas ⊆ es
  mesmos : x.escolhidos.length = x.selecionadas.length

omit [DecidableEq κ] in
theorem Coerente.tentar (h : Coerente max es x) {e : κ × τ} (he : e ∈ es)
    (hcabe : x.selecionadas.length < max) (hnovo : e.1 ∉ x.escolhidos) :
    Coerente max es (x.tentar m e) := by
  unfold Selecao.tentar
  split_ifs
  · refine ⟨?_, List.nodup_append'.mpr ⟨h.distintos, List.nodup_singleton _, ?_⟩, ?_, ?_⟩
    · rw [List.length_append]
      exact hcabe
    · exact List.disjoint_singleton.mpr hnovo
    · rw [List.zip_append h.mesmos]
      exact List.append_subset.mpr ⟨h.pares, List.cons_subset.mpr ⟨he, List.nil_subset _⟩⟩
    · rw [List.length_append, List.length_append, h.mesmos]
      rfl
  · exact ⟨h.teto, h.distintos, h.pares, h.mesmos⟩

theorem coerente_escolher : Coerente max es (escolher m max es s) := by
  refine repetir_mantem (P := fun _ _ => True) (fun x h => ⟨h.teto, h.distintos, h.pares, h.mesmos⟩)
    (fun e he x h hcabe hnovo _ => h.tentar he hcabe hnovo)
    (nasTentativas_of_forall fun _ _ => trivial) ?_
  exact ⟨Nat.zero_le _, List.nodup_nil, List.nil_subset _, rfl⟩

/-- Items selected after attempts that leave no trace run one after another from the start. -/
theorem emOrdem_escolher (hP : NasTentativas m max (SemRastro m) es s) :
    emOrdem m (escolher m max es s).selecionadas s = some (escolher m max es s).sim := by
  refine repetir_mantem (I := fun x => emOrdem m x.selecionadas s = some x.sim) (fun x h => h)
    (fun e _ x h _ _ hrastro => ?_) hP rfl
  unfold tentar
  split_ifs with hok
  · exact emOrdem_concat h hok
  · rw [hrastro (Bool.eq_false_iff.mpr hok)]
    exact h

/-! ## Where the selection stops -/

omit [DecidableEq κ] in
theorem progresso_tentar (e : κ × τ) (h : x.progresso = true) : (x.tentar m e).progresso = true := by
  unfold tentar
  split_ifs
  · rfl
  · exact h

theorem progresso_varrer (h : x.progresso = true) : (x.varrer m max es).progresso = true := by
  induction es generalizing x with
  | nil => exact h
  | cons e es ih =>
    unfold varrer
    split_ifs
    · exact h
    · exact ih h
    · exact ih (progresso_tentar e h)

/-- A sweep with progress has selected something. -/
theorem varrer_cresce : x.selecionadas.length ≤ (x.varrer m max es).selecionadas.length ∧
    ((x.varrer m max es).progresso = true → x.progresso = false →
      x.selecionadas.length < (x.varrer m max es).selecionadas.length) := by
  induction es generalizing x with
  | nil => exact ⟨le_rfl, fun h h' => absurd h (ne_true_of_eq_false h')⟩
  | cons e es ih =>
    unfold varrer
    split_ifs with _ _
    · exact ⟨le_rfl, fun h h' => absurd h (ne_true_of_eq_false h')⟩
    · exact ih
    · have hresto := @ih (x.tentar m e)
      by_cases hok : conclui (m e.2) x.sim = true
      · have hmais : (x.tentar m e).selecionadas.length = x.selecionadas.length + 1 := by
          unfold tentar
          rw [if_pos hok, List.length_append]
          rfl
        rw [hmais] at hresto
        exact ⟨Nat.le_of_succ_le hresto.1, fun _ _ => hresto.1⟩
      · have hmesmo : x.tentar m e = { x with sim := fim (m e.2) x.sim } := by
          unfold tentar
          rw [if_neg hok]
        rw [hmesmo] at hresto ⊢
        exact hresto

theorem repetir_de_parada {n : ℕ} (h : ¬(x.progresso = true ∧ x.selecionadas.length < max)) :
    repetir m max es n x = x := by
  cases n with
  | zero => rfl
  | succ n => rw [repetir, if_neg h]

/-- Enough sweeps end without progress or at the limit. -/
theorem repetir_para {n : ℕ} (h : max ≤ x.selecionadas.length + n) :
    ¬((repetir m max es n x).progresso = true ∧
      (repetir m max es n x).selecionadas.length < max) := by
  induction n generalizing x with
  | zero => exact fun hfalta => absurd h (not_le.mpr hfalta.2)
  | succ n ih =>
    unfold repetir
    split_ifs with hsegue
    · by_cases hprogresso : (x.semProgresso.varrer m max es).progresso = true
      · refine ih (h.trans ?_)
        have hmais : x.selecionadas.length <
            (x.semProgresso.varrer m max es).selecionadas.length :=
          varrer_cresce.2 hprogresso rfl
        omega
      · rw [repetir_de_parada fun hfalta => hprogresso hfalta.1]
        exact fun hfalta => hprogresso hfalta.1
    · exact hsegue

/-- What was selected stays selected, in its place. -/
theorem prefixo_varrer : x.selecionadas <+: (x.varrer m max es).selecionadas := by
  induction es generalizing x with
  | nil => exact List.prefix_refl _
  | cons e es ih =>
    unfold varrer
    split_ifs
    · exact List.prefix_refl _
    · exact ih
    · refine List.IsPrefix.trans ?_ ih
      unfold tentar
      split_ifs
      · exact List.prefix_append _ _
      · exact List.prefix_refl _

theorem prefixo_repetir {n : ℕ} : x.selecionadas <+: (repetir m max es n x).selecionadas := by
  induction n generalizing x with
  | zero => exact List.prefix_refl _
  | succ n ih =>
    unfold repetir
    split_ifs
    · exact (prefixo_varrer (x := x.semProgresso)).trans ih
    · exact List.prefix_refl _

/-- An item that runs on what a failed one left is the first of the selection. -/
theorem prefixo_escolher (e f : κ × τ) (hmax : 0 < max) (he : conclui (m e.2) s = false)
    (hf : conclui (m f.2) (fim (m e.2) s) = true) :
    [f.2] <+: (escolher m max [e, f] s).selecionadas := by
  obtain ⟨n, rfl⟩ := Nat.exists_eq_succ_of_ne_zero hmax.ne'
  have hprimeira : ((inicial s).semProgresso.varrer m (n + 1) [e, f]).selecionadas = [f.2] := by
    simp [inicial, semProgresso, varrer, tentar, he, hf]
  unfold escolher repetir
  rw [if_pos ⟨rfl, hmax⟩, ← hprimeira]
  exact prefixo_repetir

/-- Whatever was not selected fails on the state reached. -/
def Esgotada (m : τ → EStateM ε σ α) (es : List (κ × τ)) (x : Selecao σ κ τ) : Prop :=
  ∀ e ∈ es, e.1 ∉ x.escolhidos → conclui (m e.2) x.sim = false

/-- A sweep below the limit that selects nothing attempted everything on one state. -/
theorem varrer_sem_progresso (hP : NaVarredura m max (SemRastro m) es x)
    (hcabe : x.selecionadas.length < max) (hparou : (x.varrer m max es).progresso = false) :
    x.varrer m max es = x ∧ Esgotada m es x := by
  induction es with
  | nil => exact ⟨rfl, fun e he => absurd he List.not_mem_nil⟩
  | cons e es ih =>
    unfold NaVarredura at hP
    unfold varrer at hparou ⊢
    rw [if_neg (not_le.mpr hcabe)] at hP hparou ⊢
    split_ifs at hP hparou ⊢ with hescolhido
    · obtain ⟨higual, hesgotada⟩ := ih hP hparou
      exact ⟨higual, List.forall_mem_cons.mpr ⟨fun hnovo => absurd hescolhido hnovo, hesgotada⟩⟩
    · obtain ⟨hrastro, hP⟩ := hP
      have hfalha : conclui (m e.2) x.sim = false := by
        by_contra hok
        have hsim : (x.tentar m e).progresso = true := by
          unfold tentar
          rw [if_pos (eq_true_of_ne_false hok)]
        exact absurd (progresso_varrer hsim) (ne_true_of_eq_false hparou)
      have hmesmo : x.tentar m e = x := by
        unfold tentar
        rw [if_neg (ne_true_of_eq_false hfalha), hrastro hfalha]
      rw [hmesmo] at hP hparou ⊢
      obtain ⟨higual, hesgotada⟩ := ih hP hparou
      exact ⟨higual, List.forall_mem_cons.mpr ⟨fun _ => hfalha, hesgotada⟩⟩

theorem repetir_esgotada {n : ℕ} (hP : NasVarreduras m max (SemRastro m) es n x)
    (hx : x.progresso = false → Esgotada m es x)
    (hparou : (repetir m max es n x).progresso = false) :
    Esgotada m es (repetir m max es n x) := by
  induction n generalizing x with
  | zero => exact hx hparou
  | succ n ih =>
    unfold NasVarreduras at hP
    unfold repetir at hparou ⊢
    split_ifs at hP hparou ⊢ with hsegue
    · refine ih hP.2 (fun hfalso => ?_) hparou
      obtain ⟨higual, hesgotada⟩ := varrer_sem_progresso hP.1 hsegue.2 hfalso
      rw [higual]
      exact hesgotada
    · exact hx hparou

/-- Below the limit, the selection ends with everything else failing. -/
theorem esgotada_escolher (hP : NasTentativas m max (SemRastro m) es s)
    (hcabe : (escolher m max es s).selecionadas.length < max) :
    Esgotada m es (escolher m max es s) := by
  refine repetir_esgotada hP (fun h => absurd h Bool.true_eq_false.mp) ?_
  exact Bool.eq_false_iff.mpr fun hprogresso =>
    repetir_para (x := inicial s) (Nat.le_add_left _ _) ⟨hprogresso, hcabe⟩

/-- A limit that the items do not pass leaves none of them out for lack of room. -/
theorem esgotada_de_poucos (hP : NasTentativas m max (SemRastro m) es s)
    (hpoucos : es.length ≤ max) :
    Esgotada m es (escolher m max es s) := by
  by_cases hcabe : (escolher m max es s).selecionadas.length < max
  · exact esgotada_escolher hP hcabe
  · have h : Coerente max es (escolher m max es s) := coerente_escolher
    have hsub : (escolher m max es s).escolhidos ⊆ es.map Prod.fst := by
      rw [← List.map_fst_zip h.mesmos.le]
      exact List.map_subset _ h.pares
    have htodas := (h.distintos.subperm hsub).perm_of_length_le <| by
      rw [List.length_map, h.mesmos]
      exact hpoucos.trans (not_lt.mp hcabe)
    intro e he hfora
    exact absurd (htodas.mem_iff.mpr (List.mem_map_of_mem he)) hfora

end

end Selecao

end Base
