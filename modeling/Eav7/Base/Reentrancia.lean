import Eav7.Base.Percurso

/-!
# Contracts that call out

The code of a call runs at once. It may end by handing something over to an account,
whose own code then runs, and may call the contract again, before the first call returns.
An open frame keeps what the contract was when it was entered: a frame that returns leaves
the present, and one that reverts brings that back. The world outside only changes between
transactions, when no frame is open.

What every accepted call keeps is so true at every moment, in the middle of a call and
after any revert, and of everything that a revert can bring back.
-/

namespace Base.Reentrancia

variable {σ κ π : Type}

/-- How the code of a call ends: it returns, or it hands control over and waits. -/
inductive Saida (σ π : Type)
  | volta (s : σ)
  | entrega (p : π) (s : σ)

namespace Saida

def estado : Saida σ π → σ
  | volta s => s
  | entrega _ s => s

@[simp] theorem estado_volta (s : σ) : (volta s : Saida σ π).estado = s := rfl

@[simp] theorem estado_entrega (p : π) (s : σ) : (entrega p s).estado = s := rfl

end Saida

/-- A contract in the middle of a transaction: its state, the accepted calls that still
stand, the newest first, and what each open frame would bring back. -/
structure Maquina (σ κ : Type) where
  estado : σ
  feitas : List κ
  pilha : List (σ × List κ)

/-- The contract as it is deployed. -/
def Maquina.inicial (s : σ) : Maquina σ κ := ⟨s, [], []⟩

/-- What may happen next. A frame is a call of somebody else's code. -/
inductive Lance (κ : Type)
  | chama (c : κ)
  | quadro
  | retorna
  | reverte
  | entre

section

variable (executa : κ → σ → Except String (Saida σ π)) (muda : σ → σ → Prop)

inductive Passo : Lance κ → Maquina σ κ → Maquina σ κ → Prop
  | volta {c : κ} {s t : σ} {l : List κ} {p : List (σ × List κ)}
      (h : executa c s = .ok (.volta t)) : Passo (.chama c) ⟨s, l, p⟩ ⟨t, c :: l, p⟩
  | entrega {c : κ} {s t : σ} {x : π} {l : List κ} {p : List (σ × List κ)}
      (h : executa c s = .ok (.entrega x t)) :
      Passo (.chama c) ⟨s, l, p⟩ ⟨t, c :: l, (s, l) :: p⟩
  | quadro {s : σ} {l : List κ} {p : List (σ × List κ)} :
      Passo .quadro ⟨s, l, p⟩ ⟨s, l, (s, l) :: p⟩
  | retorna {s : σ} {l : List κ} {q : σ × List κ} {p : List (σ × List κ)} :
      Passo .retorna ⟨s, l, q :: p⟩ ⟨s, l, p⟩
  | reverte {s : σ} {l : List κ} {q : σ × List κ} {p : List (σ × List κ)} :
      Passo .reverte ⟨s, l, q :: p⟩ ⟨q.1, q.2, p⟩
  | entre {s t : σ} {l : List κ} (h : muda s t) : Passo .entre ⟨s, l, []⟩ ⟨t, l, []⟩

/-- A history of the contract: what happened, the newest first. -/
abbrev Historia (s₀ : σ) : List (Maquina σ κ × Lance κ) → Maquina σ κ → Prop :=
  Percurso (Passo executa muda) (.inicial s₀)

end

/-- A moment of a history: a machine it went through, or its last one. -/
def Momento (passado : List (Maquina σ κ × Lance κ)) (m n : Maquina σ κ) : Prop :=
  n = m ∨ ∃ a, (n, a) ∈ passado

variable {executa : κ → σ → Except String (Saida σ π)} {muda : σ → σ → Prop}
  {s₀ : σ} {passado : List (Maquina σ κ × Lance κ)} {m n : Maquina σ κ}

/-- Every moment is the end of a history of its own. -/
theorem Momento.historia (hn : Momento passado m n) (h : Historia executa muda s₀ passado m) :
    ∃ antes, Historia executa muda s₀ antes n ∧ antes ⊆ passado := by
  obtain rfl | ⟨a, ha⟩ := hn
  · exact ⟨passado, h, List.Subset.refl _⟩
  · obtain ⟨antes, t, hantes, -, hsub⟩ := h.disparou ha
    exact ⟨antes, hantes, hsub⟩

/-- What an accepted call does to the state is done at the next moment. -/
theorem momento_depois {c : κ} (h : Historia executa muda s₀ passado m)
    (hx : (n, .chama c) ∈ passado) : ∃ saida, executa c n.estado = .ok saida ∧
      ∃ n', Momento passado m n' ∧ n'.estado = saida.estado ∧ n'.feitas = c :: n.feitas := by
  obtain ⟨depois, antes, rfl⟩ := List.append_of_mem hx
  obtain ⟨-, t, ht, hdepois⟩ := h.corta
  have hmomento : Momento (depois ++ (n, .chama c) :: antes) m t := by
    cases depois with
    | nil =>
      cases hdepois
      exact .inl rfl
    | cons y depois =>
      rcases List.eq_nil_or_concat (y :: depois) with hvazio | ⟨meio, z, hz⟩
      · cases hvazio
      · rw [hz, List.concat_eq_append] at hdepois ⊢
        have hprimeiro := (hdepois.corta).1
        cases hprimeiro
        exact .inr ⟨z.2, by simp⟩
  cases ht with
  | volta hexec => exact ⟨_, hexec, _, hmomento, rfl, rfl⟩
  | entrega hexec => exact ⟨_, hexec, _, hmomento, rfl, rfl⟩

/-! ## Invariants -/

/-- A property is kept by the calls that satisfy `G` and by the world outside, as long as
the moments they lead to satisfy `H`. -/
structure Mantem (executa : κ → σ → Except String (Saida σ π)) (muda : σ → σ → Prop)
    (G : κ → σ → Prop) (H I : σ → List κ → Prop) : Prop where
  chama : ∀ {c s l saida}, I s l → G c s → executa c s = .ok saida → H saida.estado (c :: l) →
    I saida.estado (c :: l)
  entre : ∀ {s t l}, I s l → muda s t → H t l → I t l

variable {G : κ → σ → Prop} {H I : σ → List κ → Prop}

/-- The property holds now and of all that a revert can bring back. -/
def Vale (I : σ → List κ → Prop) (m : Maquina σ κ) : Prop :=
  I m.estado m.feitas ∧ ∀ q ∈ m.pilha, I q.1 q.2

theorem Mantem.passo (hI : Mantem executa muda G H I) {a : Lance κ} {m' : Maquina σ κ}
    (h : Passo executa muda a m m') (hm : Vale I m) (hG : ∀ c, a = .chama c → G c m.estado)
    (hH : H m'.estado m'.feitas) : Vale I m' := by
  obtain ⟨hagora, hpilha⟩ := hm
  cases h with
  | volta hexec => exact ⟨hI.chama hagora (hG _ rfl) hexec hH, hpilha⟩
  | entrega hexec =>
    exact ⟨hI.chama hagora (hG _ rfl) hexec hH, List.forall_mem_cons.mpr ⟨hagora, hpilha⟩⟩
  | quadro => exact ⟨hagora, List.forall_mem_cons.mpr ⟨hagora, hpilha⟩⟩
  | retorna => exact ⟨hagora, (List.forall_mem_cons.mp hpilha).2⟩
  | reverte => exact List.forall_mem_cons.mp hpilha
  | entre hmuda => exact ⟨hI.entre hagora hmuda hH, hpilha⟩

/-- The rule of invariants: what is true of the deployed contract and kept stays true, in
every history whose accepted calls satisfy `G` and whose moments satisfy `H`. -/
theorem Mantem.historia (hI : Mantem executa muda G H I) (h : Historia executa muda s₀ passado m)
    (h₀ : I s₀ []) (hG : ∀ n c, (n, .chama c) ∈ passado → G c n.estado)
    (hH : ∀ n, Momento passado m n → H n.estado n.feitas) : Vale I m := by
  induction h with
  | inicio => exact ⟨h₀, fun q hq => by cases hq⟩
  | segue h ha ih =>
    refine hI.passo ha (ih (fun n c hc => hG n c (List.mem_cons_of_mem _ hc)) ?_) ?_ ?_
    · rintro n (rfl | ⟨a, hn⟩)
      · exact hH _ (.inr ⟨_, List.mem_cons_self⟩)
      · exact hH _ (.inr ⟨a, List.mem_cons_of_mem _ hn⟩)
    · rintro c rfl
      exact hG _ c List.mem_cons_self
    · exact hH _ (.inl rfl)

/-- The rule at every moment of a history. -/
theorem Mantem.momento (hI : Mantem executa muda G H I) (h : Historia executa muda s₀ passado m)
    (h₀ : I s₀ []) (hG : ∀ n c, (n, .chama c) ∈ passado → G c n.estado)
    (hH : ∀ n, Momento passado m n → H n.estado n.feitas) (hn : Momento passado m n) :
    I n.estado n.feitas := by
  obtain rfl | ⟨a, ha⟩ := hn
  · exact (hI.historia h h₀ hG hH).1
  · obtain ⟨depois, antes, rfl⟩ := List.append_of_mem ha
    refine (hI.historia h.corta.1 h₀ (fun n c hc => hG n c (by simp [hc])) ?_).1
    rintro n' (rfl | ⟨b, hb⟩)
    · exact hH _ (.inr ⟨a, ha⟩)
    · exact hH _ (.inr ⟨b, by simp [hb]⟩)

end Base.Reentrancia
