import Eav7.Base.Diario
import Eav7.Eavm.Host
import Eav7.Eavm.Regra

/-!
# Isolation of the nested frames

Over any world that keeps the contract of its journal, a call or a creation that
fails leaves the view of the world as it was, up to the nonce of the creator. A
frame under the static ban changes nothing at all. Both come with one invariant,
`Mantem`, carried through the frames by the rule of the interpreter; a relation
`C` that the writes keep rides along.
-/

namespace Eav7
namespace Eavm

open Base

section

variable {σ V α : Type}

/-- Two states that no read of the world tells apart. -/
structure World.Igual (w : World σ) (s t : σ) : Prop where
  getStorage : w.getStorage s = w.getStorage t
  getCode : w.getCode s = w.getCode t
  getBalance : w.getBalance s = w.getBalance t
  nonce : ∀ a, (w.bumpNonce s a).1 = (w.bumpNonce t a).1
  blockHash : w.blockHash s = w.blockHash t

/-- The contract of journaling of a world: what is read is in the view, a write only
adds to the journal, a snapshot is a mark, and a revert to a live mark undoes to it. -/
structure Journaled (w : World σ) (d : Diario σ V) : Prop where
  observa : ∀ {s t}, d.ver s = d.ver t → w.Igual s t
  setStorage : ∀ s a k v, d.Preserva s (w.setStorage s a k v)
  putCode : ∀ s a c, d.Preserva s (w.putCode s a c)
  moveValue : ∀ s de para v kind, d.Preserva s (w.moveValue s de para v kind).2
  bumpNonce : ∀ s a, d.Preserva s (w.bumpNonce s a).2
  snapshot : ∀ s, d.Marca s (w.snapshot s).1 (w.snapshot s).2
  revert : ∀ s m, m ≤ d.prof s → d.Desfeito s m (w.revert s m)

/-- A relation between views that every write of the world keeps. -/
structure Conserva (w : World σ) (d : Diario σ V) (C : V → V → Prop) : Prop where
  refl : ∀ v, C v v
  trans : ∀ {a b c}, C a b → C b c → C a c
  setStorage : ∀ s a k v, C (d.ver s) (d.ver (w.setStorage s a k v))
  putCode : ∀ s a c, C (d.ver s) (d.ver (w.putCode s a c))
  moveValue : ∀ s de para v kind, C (d.ver s) (d.ver (w.moveValue s de para v kind).2)
  bumpNonce : ∀ s a, C (d.ver s) (d.ver (w.bumpNonce s a).2)

/-- What a part of a run keeps; a static one keeps the world and the transient map. -/
structure Mantem (d : Diario σ V) (C : V → V → Prop) (estatico : Bool) (s t : EavmHost σ) :
    Prop where
  diario : d.Preserva s.world t.world
  visao : C (d.ver s.world) (d.ver t.world)
  parado : estatico = true → d.ver t.world = d.ver s.world ∧ t.transient = s.transient

variable {w : World σ} {d : Diario σ V} {C : V → V → Prop} {b b' : Bool} {s t u : EavmHost σ}

namespace Mantem

theorem refl (hc : Conserva w d C) (s : EavmHost σ) : Mantem d C b s s where
  diario := Diario.Preserva.refl _
  visao := hc.refl _
  parado _ := ⟨rfl, rfl⟩

theorem trans (hc : Conserva w d C) (h : Mantem d C b s t) (h' : Mantem d C b t u) :
    Mantem d C b s u where
  diario := h.diario.trans h'.diario
  visao := hc.trans h.visao h'.visao
  parado hb := ⟨(h'.parado hb).1.trans (h.parado hb).1, (h'.parado hb).2.trans (h.parado hb).2⟩

theorem mono (h : Mantem d C b s t) (hb : b' = true → b = true) : Mantem d C b' s t where
  diario := h.diario
  visao := h.visao
  parado hb' := h.parado (hb hb')

/-- A write of the world, out of the static ban. -/
theorem escrita {x : σ} (hd : d.Preserva s.world x) (hv : C (d.ver s.world) (d.ver x)) :
    Mantem d C false s { s with world := x } where
  diario := hd
  visao := hv
  parado hb := by cases hb

end Mantem

/-! ## Between a snapshot and its revert -/

/-- `u` comes after a snapshot of `s` with the mark `m`. -/
structure Aberto (d : Diario σ V) (C : V → V → Prop) (b : Bool) (s : EavmHost σ) (m : ℕ)
    (u : EavmHost σ) : Prop where
  marca : ∃ a, d.Marca s.world m a ∧ d.Preserva a u.world
  visao : C (d.ver s.world) (d.ver u.world)
  parado : b = true → d.ver u.world = d.ver s.world ∧ u.transient = s.transient

/-- The revert gives back the view of the snapshot. -/
structure Restaurado (d : Diario σ V) (C : V → V → Prop) (b : Bool) (s t : EavmHost σ) : Prop where
  ver : d.ver t.world = d.ver s.world
  mantem : Mantem d C b s t

namespace Aberto

variable {m : ℕ}

theorem avanca (hc : Conserva w d C) (h : Aberto d C b s m u) (h' : Mantem d C b u t) :
    Aberto d C b s m t where
  marca := by
    obtain ⟨a, hm, hp⟩ := h.marca
    exact ⟨a, hm, hp.trans h'.diario⟩
  visao := hc.trans h.visao h'.visao
  parado hb := ⟨(h'.parado hb).1.trans (h.parado hb).1, (h'.parado hb).2.trans (h.parado hb).2⟩

theorem fecha (h : Aberto d C b s m u) : Mantem d C b s u where
  diario := by
    obtain ⟨a, hm, hp⟩ := h.marca
    exact hm.preserva.trans hp
  visao := h.visao
  parado := h.parado

theorem desfaz (hj : Journaled w d) (hc : Conserva w d C) (h : Aberto d C b s m u) :
    Restaurado d C b s { u with world := w.revert u.world m } := by
  obtain ⟨a, hm, hp⟩ := h.marca
  have hdentro : m ≤ d.prof u.world := Nat.le_trans hm.dentro hp.prof
  obtain ⟨hver, hpres⟩ := Diario.restaura hm hp (hj.revert u.world m hdentro)
  refine ⟨hver, hpres, ?_, fun hb => ⟨hver, (h.parado hb).2⟩⟩
  change C (d.ver s.world) (d.ver (w.revert u.world m))
  rw [hver]
  exact hc.refl _

end Aberto

section Passos

variable {Q : α → EavmHost σ → Prop} {E : Parada → EavmHost σ → Prop}

theorem snapshot_aberto (hj : Journaled w d) (hc : Conserva w d C) {f : ℕ → NoMundo σ α}
    (hf : ∀ m u, Aberto d C b s m u → Runs (f m) u Q E) : Runs (snapshotWorld w >>= f) s Q E := by
  have hm := hj.snapshot s.world
  refine Runs.bind (Runs.intro ?_ fun e t he => by cases he)
  rintro m u ⟨⟩
  refine hf _ _ ⟨⟨_, hm, Diario.Preserva.refl _⟩, ?_, fun _ => ⟨hm.ver, rfl⟩⟩
  rw [hm.ver]
  exact hc.refl _

/-- No value moves in a static frame. -/
theorem moveValue_mantem (hj : Journaled w d) (hc : Conserva w d C) {de para : Address}
    {value : Word} {kind : TransferKind} (hb : b = true → value = 0) {f : Bool → NoMundo σ α}
    (hf : ∀ moveu u, Mantem d C b s u → Runs (f moveu) u Q E) :
    Runs (moveValueWorld w de para value kind >>= f) s Q E := by
  refine Runs.bind (Runs.intro ?_ ?_)
  · intro moveu u hrun
    refine hf moveu u ?_
    unfold moveValueWorld at hrun
    split_ifs at hrun with h0
    · obtain ⟨-, rfl⟩ := hrun
      exact Mantem.refl hc s
    · obtain ⟨-, rfl⟩ := hrun
      refine (Mantem.escrita (hj.moveValue _ _ _ _ _) (hc.moveValue _ _ _ _ _)).mono fun ht => ?_
      exact absurd (hb ht) h0
  · intro e u hrun
    unfold moveValueWorld at hrun
    split_ifs at hrun

/-- Reverting to the mark, and answering. -/
theorem revert_restaurado (hj : Journaled w d) (hc : Conserva w d C) {m : ℕ} {r : α}
    (h : Aberto d C b s m u) (hq : ∀ t, Restaurado d C b s t → Q r t) :
    Runs (revertWorld w m >>= fun _ => (pure r : NoMundo σ α)) u Q E :=
  Runs.modify_bind (Runs.pure_intro (hq _ (h.desfaz hj hc)))

end Passos

/-! ## Calls -/

variable {cr : Cripto} {pc : Precompilados} {h : Host (EavmHost σ)}

/-- A request that can write nothing. -/
def CallRequest.parado (p : CallRequest) : Bool := p.isStatic && p.value == 0

/-- What the answer of a call says: a failed one left the view alone, and a static
one changed nothing and emitted nothing. -/
structure Respondida (d : Diario σ V) (C : V → V → Prop) (p : CallRequest) (s : EavmHost σ)
    (r : CallOutcome) (t : EavmHost σ) : Prop where
  mantem : Mantem d C p.parado s t
  falhou : r.success = false → d.ver t.world = d.ver s.world
  mudo : p.parado = true → r.logs = []

/-- What a frame started by the host keeps. -/
def QuadroMantem (d : Diario σ V) (C : V → V → Prop) (cr : Cripto) (h : Host (EavmHost σ))
    (p : ExecParams) : Prop :=
  ∀ s, Runs (runEavm cr h p) s
    (fun r t => Mantem d C p.isStatic s t ∧ (p.isStatic = true → r.logs = []))
    fun _ t => Mantem d C p.isStatic s t

theorem Restaurado.respondida {p : CallRequest} {r : CallOutcome}
    (h : Restaurado d C p.parado s t) (hl : r.logs = []) : Respondida d C p s r t where
  mantem := h.mantem
  falhou _ := h.ver
  mudo _ := hl

theorem parado_value {p : CallRequest} (h : p.parado = true) :
    (if p.delegate then 0 else p.value) = 0 := by
  have hv : p.value = 0 := by
    simpa using (Bool.and_eq_true_iff.mp h).2
  rw [hv, ite_self]

theorem chamaPrecompile_respondida (hj : Journaled w d) (hc : Conserva w d C) (p : CallRequest)
    (id : ℕ) (s : EavmHost σ) :
    Runs (chamaPrecompile w cr pc p id) s (fun r t => Respondida d C p s r t)
      fun _ t => Mantem d C p.parado s t := by
  unfold chamaPrecompile
  refine snapshot_aberto (b := p.parado) hj hc fun m u hab => ?_
  refine moveValue_mantem (b := p.parado) hj hc parado_value fun moveu u' hmv => ?_
  have hab' := hab.avanca hc hmv
  refine Runs.ite (fun _ => ?_) fun _ => ?_
  · exact revert_restaurado hj hc hab' fun t ht => ht.respondida rfl
  · refine Runs.bind ((tenta_runs (Runs.lift_intro (Q := fun _ t => t = u') (E := fun _ t => t = u')
      (fun _ _ => rfl) fun _ _ => rfl)).mono ?_ ?_)
    · intro r t hr
      cases r with
      | ok o =>
        obtain rfl : t = u' := hr
        exact Runs.pure_intro ⟨hab'.fecha, fun hf => (by cases hf), fun _ => rfl⟩
      | error e =>
        obtain rfl : t = u' := hr
        exact revert_restaurado hj hc hab' fun t ht => ht.respondida rfl
    · rintro e t rfl
      exact hab'.fecha

theorem rodaCall_respondida (hj : Journaled w d) (hc : Conserva w d C) {p : CallRequest}
    {code : Bytes} {m : ℕ} (hrun : ∀ osaka, QuadroMantem d C cr h (paramsDeCall p code osaka))
    (hab : Aberto d C p.parado s m u) :
    Runs (rodaCall w cr h p code m) u (fun r t => Respondida d C p s r t)
      fun _ t => Mantem d C p.parado s t := by
  have hparado : p.parado = true → p.isStatic = true := fun hp => (Bool.and_eq_true_iff.mp hp).1
  unfold rodaCall
  refine Runs.get_bind (Runs.bind ((tenta_runs (hrun u.osakaHeight u)).mono ?_ ?_))
  · intro r t hr
    cases r with
    | ok res =>
      obtain ⟨hm, hmudo⟩ := hr
      have hab' := hab.avanca hc (hm.mono hparado)
      refine Runs.ite (fun _ => Runs.pure_intro ⟨hab'.fecha, fun hf => ?_, fun hp => ?_⟩) fun _ => ?_
      · cases hf
      · exact hmudo (hparado hp)
      · exact revert_restaurado hj hc hab' fun t ht => ht.respondida rfl
    | error e =>
      have hab' := hab.avanca hc (Mantem.mono hr hparado)
      exact revert_restaurado hj hc hab' fun t ht => ht.respondida rfl
  · exact fun e t ht => (hab.avanca hc (Mantem.mono ht hparado)).fecha

theorem Respondida.vazia (hc : Conserva w d C) {p : CallRequest} :
    Respondida d C p s {} s where
  mantem := Mantem.refl hc s
  falhou _ := rfl
  mudo _ := rfl

theorem executaCall_respondida (hj : Journaled w d) (hc : Conserva w d C) {p : CallRequest}
    (hrun : ∀ code osaka, QuadroMantem d C cr h (paramsDeCall p code osaka)) (s : EavmHost σ) :
    Runs (executaCall w cr pc h p) s (fun r t => Respondida d C p s r t)
      fun _ t => Mantem d C p.parado s t := by
  unfold executaCall
  refine Runs.ite (fun _ => Runs.pure_intro (Respondida.vazia hc)) fun _ => Runs.get_bind ?_
  cases precompileId p.para (s.osakaHeight ≤ p.block.number) with
  | some id => exact chamaPrecompile_respondida hj hc p id s
  | none =>
    refine snapshot_aberto (b := p.parado) hj hc fun m u hab => ?_
    refine moveValue_mantem (b := p.parado) hj hc parado_value fun moveu u' hmv => ?_
    have hab' := hab.avanca hc hmv
    refine Runs.ite (fun _ => ?_) fun _ => Runs.get_bind (Runs.ite (fun _ => ?_) fun _ => ?_)
    · exact revert_restaurado hj hc hab' fun t ht => ht.respondida rfl
    · exact Runs.pure_intro ⟨hab'.fecha, fun hf => (by cases hf), fun _ => rfl⟩
    · exact rodaCall_respondida hj hc (hrun _) hab'

/-! ## Creations -/

/-- The world a failed creation leaves: its nonce is spent, unless the depth was
refused. -/
def semCriacao (w : World σ) (p : CreateRequest) (s : σ) : σ :=
  if maxCallDepth ≤ p.depth then s else (w.bumpNonce s p.caller).2

structure Criada (w : World σ) (d : Diario σ V) (C : V → V → Prop) (p : CreateRequest)
    (s : EavmHost σ) (r : CreateOutcome) (t : EavmHost σ) : Prop where
  mantem : Mantem d C false s t
  falhou : r.success = false → d.ver t.world = d.ver (semCriacao w p s.world)

/-- After the nonce, which stays: from `s` to `u`. -/
structure Iniciada (w : World σ) (d : Diario σ V) (C : V → V → Prop) (p : CreateRequest)
    (s u : EavmHost σ) : Prop where
  mantem : Mantem d C false s u
  ver : d.ver u.world = d.ver (semCriacao w p s.world)

theorem Iniciada.falha (hc : Conserva w d C) {p : CreateRequest} {r : CreateOutcome}
    (hi : Iniciada w d C p s u) (ht : Restaurado d C false u t) : Criada w d C p s r t where
  mantem := hi.mantem.trans hc ht.mantem
  falhou _ := ht.ver.trans hi.ver

theorem Iniciada.sucesso (hc : Conserva w d C) {p : CreateRequest} {r : CreateOutcome}
    (hi : Iniciada w d C p s u) (ht : Mantem d C false u t) (hr : r.success = true) :
    Criada w d C p s r t where
  mantem := hi.mantem.trans hc ht
  falhou hf := by rw [hr] at hf; cases hf

theorem instala_criada (hj : Journaled w d) (hc : Conserva w d C) {p : CreateRequest}
    {address : Address} {m : ℕ} {res : ExecResult} {v : EavmHost σ}
    (hi : Iniciada w d C p s u) (hab : Aberto d C false u m v) :
    Runs (instala w p address m res) v (fun r t => Criada w d C p s r t)
      fun _ t => Mantem d C false s t := by
  unfold instala
  refine Runs.ite (fun _ => ?_) fun _ => Runs.modify_bind (Runs.pure_intro ?_)
  · exact revert_restaurado hj hc hab fun t ht => hi.falha hc ht
  · exact hi.sucesso hc (hab.avanca hc (Mantem.escrita (hj.putCode _ _ _) (hc.putCode _ _ _))).fecha
      rfl

theorem rodaCreate_criada (hj : Journaled w d) (hc : Conserva w d C) {p : CreateRequest}
    {address : Address} {m : ℕ} {v : EavmHost σ}
    (hrun : ∀ osaka, QuadroMantem d C cr h (paramsDeCreate p address osaka))
    (hi : Iniciada w d C p s u) (hab : Aberto d C false u m v) :
    Runs (rodaCreate w cr h p address m) v (fun r t => Criada w d C p s r t)
      fun _ t => Mantem d C false s t := by
  unfold rodaCreate
  refine Runs.get_bind (Runs.bind ((tenta_runs (hrun v.osakaHeight v)).mono ?_ ?_))
  · intro r t hr
    cases r with
    | error e =>
      exact revert_restaurado hj hc (hab.avanca hc hr) fun t ht => hi.falha hc ht
    | ok res =>
      have hab' := hab.avanca hc hr.1
      refine Runs.ite (fun _ => instala_criada hj hc hi hab') fun _ => ?_
      exact revert_restaurado hj hc hab' fun t ht => hi.falha hc ht
  · exact fun e t ht => hi.mantem.trans hc (hab.avanca hc ht).fecha

theorem executaCreate_criada (hj : Journaled w d) (hc : Conserva w d C) {p : CreateRequest}
    (hrun : ∀ address osaka, QuadroMantem d C cr h (paramsDeCreate p address osaka))
    (s : EavmHost σ) :
    Runs (executaCreate w cr h p) s (fun r t => Criada w d C p s r t)
      fun _ t => Mantem d C false s t := by
  unfold executaCreate
  refine Runs.ite (fun hd => Runs.pure_intro ⟨Mantem.refl hc s, fun _ => ?_⟩) fun hd => ?_
  · rw [semCriacao, if_pos hd]
  · have hi : Iniciada w d C p s { s with world := (w.bumpNonce s.world p.caller).2 } :=
      ⟨Mantem.escrita (hj.bumpNonce _ _) (hc.bumpNonce _ _), by rw [semCriacao, if_neg hd]⟩
    refine Runs.bind (Runs.intro ?_ fun e t he => by cases he)
    rintro nonce u ⟨⟩
    refine Runs.get_bind (Runs.ite (fun _ => Runs.pure_intro ⟨hi.mantem, fun _ => hi.ver⟩) fun _ => ?_)
    refine snapshot_aberto (b := false) hj hc fun m v hab => ?_
    refine moveValue_mantem (b := false) hj hc (fun hf => by cases hf) fun moveu v' hmv => ?_
    have hab' := hab.avanca hc hmv
    refine Runs.ite (fun _ => ?_) fun _ => rodaCreate_criada hj hc (hrun _) hi hab'
    exact revert_restaurado hj hc hab' fun t ht => hi.falha hc ht

/-! ## Every frame -/

/-- The rule of a frame, from what its nested frames keep. -/
theorem regra_de (hj : Journaled w d) (hc : Conserva w d C) {q : Quadro}
    {call : CallRequest → NoMundo σ CallOutcome} {create : CreateRequest → NoMundo σ CreateOutcome}
    (hcall : ∀ p s, Runs (call p) s (fun r t => Respondida d C p s r t)
      fun _ t => Mantem d C p.parado s t)
    (hcreate : ∀ p s, Runs (create p) s (fun r t => Criada w d C p s r t)
      fun _ t => Mantem d C false s t) :
    Regra (hostBase w call create) q (Mantem d C q.isStatic) fun logs =>
      q.isStatic = true → logs = [] where
  refl := Mantem.refl hc
  trans := Mantem.trans hc
  nil _ := rfl
  append ha hb hs := by rw [ha hs, hb hs]; rfl
  log hs l hs' := by rw [hs] at hs'; cases hs'
  sstore hs a k v s := by
    rw [hs]
    exact Runs.modify_intro (Mantem.escrita (hj.setStorage _ _ _ _) (hc.setStorage _ _ _ _))
  tstore hs a k v s := by
    rw [hs]
    exact Runs.modify_intro ⟨Diario.Preserva.refl _, hc.refl _, fun hf => by cases hf⟩
  call p hp s := by
    have hparado : q.isStatic = true → p.parado = true := fun hs => by
      obtain ⟨h1, h2⟩ := hp hs
      simp [CallRequest.parado, h1, h2]
    refine (hcall p s).mono (fun r t hr => ⟨hr.mantem.mono hparado, fun hs => ?_⟩) fun _ t ht => ?_
    · exact hr.mudo (hparado hs)
    · exact ht.mono hparado
  create hs p s := by
    rw [hs]
    exact (hcreate p s).mono (fun r t hr => ⟨hr.mantem, fun hf => by cases hf⟩) fun _ _ ht => ht

/-- Frames at every level of nesting keep the rule, and answer as above. -/
theorem eavmHost_isola (hj : Journaled w d) (hc : Conserva w d C) (n : ℕ) :
    (∀ p s, Runs ((eavmHost w cr pc n).call p) s (fun r t => Respondida d C p s r t)
      fun _ t => Mantem d C p.parado s t) ∧
    (∀ p s, Runs ((eavmHost w cr pc n).create p) s (fun r t => Criada w d C p s r t)
      fun _ t => Mantem d C false s t) ∧
    ∀ p, QuadroMantem d C cr (eavmHost w cr pc n) p := by
  induction n with
  | zero =>
    have hcall : ∀ p s, Runs ((eavmHost w cr pc 0).call p) s (fun r t => Respondida d C p s r t)
        fun _ t => Mantem d C p.parado s t := fun p s => Runs.throw_intro (Mantem.refl hc s)
    have hcreate : ∀ p s, Runs ((eavmHost w cr pc 0).create p) s (fun r t => Criada w d C p s r t)
        fun _ t => Mantem d C false s t := fun p s => Runs.throw_intro (Mantem.refl hc s)
    exact ⟨hcall, hcreate, fun p s => runEavm_regra (regra_de hj hc hcall hcreate) s⟩
  | succ n ih =>
    obtain ⟨-, -, hquadro⟩ := ih
    have hcall : ∀ p s, Runs ((eavmHost w cr pc (n + 1)).call p) s
        (fun r t => Respondida d C p s r t) fun _ t => Mantem d C p.parado s t :=
      fun p s => executaCall_respondida hj hc (fun _ _ => hquadro _) s
    have hcreate : ∀ p s, Runs ((eavmHost w cr pc (n + 1)).create p) s
        (fun r t => Criada w d C p s r t) fun _ t => Mantem d C false s t :=
      fun p s => executaCreate_criada hj hc (fun _ _ => hquadro _) s
    exact ⟨hcall, hcreate, fun p s => runEavm_regra (regra_de hj hc hcall hcreate) s⟩

end

end Eavm
end Eav7
