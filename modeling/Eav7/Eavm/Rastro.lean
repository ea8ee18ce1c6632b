import Eav7.Eavm.Isolamento

/-!
# The trace of a run and its effective logs

The trace of a frame lists, in order, the logs it emits and the nested frames it
starts, each with its own trace and whether it succeeded. The logs a frame
returns are those of its trace under successful frames only.
-/

namespace Eav7
namespace Eavm

open Base

/-- The chronology of a run over states `τ`: a frame says where it starts. -/
inductive Rastro (τ : Type) where
  | fim
  | quadro (p : ExecParams) (s : τ) (dentro : Rastro τ)
  | log (l : Log) (resto : Rastro τ)
  | filho (success : Bool) (dentro resto : Rastro τ)

namespace Rastro

variable {τ : Type}

/-- Every log emitted, by any frame. -/
def emitidos : Rastro τ → List Log
  | fim => []
  | quadro _ _ dentro => dentro.emitidos
  | log l resto => l :: resto.emitidos
  | filho _ dentro resto => dentro.emitidos ++ resto.emitidos

/-- The frames that start, directly or through others. -/
def quadros : Rastro τ → List (ExecParams × τ)
  | fim => []
  | quadro p s dentro => (p, s) :: dentro.quadros
  | log _ resto => resto.quadros
  | filho _ dentro resto => dentro.quadros ++ resto.quadros

/-- The logs of the frames all of whose ancestors below this one succeeded, in the
order of their emission. -/
def efetivos : Rastro τ → List Log
  | fim => []
  | quadro _ _ dentro => dentro.efetivos
  | log l resto => l :: resto.efetivos
  | filho success dentro resto =>
    (if success then dentro.efetivos else []) ++ resto.efetivos

theorem efetivos_sublist (r : Rastro τ) : r.efetivos.Sublist r.emitidos := by
  induction r with
  | fim => exact List.Sublist.refl _
  | quadro p s dentro ih => exact ih
  | log l resto ih => exact ih.cons_cons l
  | filho success dentro resto ihd ihr =>
    refine List.Sublist.append ?_ ihr
    cases success with
    | false => exact List.nil_sublist _
    | true => exact ihd

end Rastro

section

variable {σ τ : Type} (cr : Cripto) (h : Host τ) (q : Quadro)
  (traca : CallRequest → τ → Rastro τ) (tracaCreate : CreateRequest → τ → Rastro τ)

def deuCerto (r : EStateM.Result Parada τ CallOutcome) : Bool :=
  match r with
  | .ok r _ => r.success
  | .error _ _ => false

def deuCertoCreate (r : EStateM.Result Parada τ CreateOutcome) : Bool :=
  match r with
  | .ok r _ => r.success
  | .error _ _ => false

/-- What an instruction adds in front of the rest of the trace. -/
def evento (op : UInt8) (i : Interp τ) (instr : Instrucao) (resto : Rastro τ) : Rastro τ :=
  match instr with
  | .log n =>
    match preparaLog q op n i with
    | .ok l _ => .log l resto
    | .error _ _ => resto
  | .call kind =>
    match preparaCall q op kind i with
    | .ok (req, _, _) j => .filho (deuCerto (h.call req j.host)) (traca req j.host) resto
    | .error _ _ => resto
  | .create comSalt =>
    match preparaCreate q op comSalt i with
    | .ok req j =>
      .filho (deuCertoCreate (h.create req j.host)) (tracaCreate req j.host) resto
    | .error _ _ => resto
  | _ => resto

/-- The trace along the turns of the loop, up to the one that ends or fails. -/
def rastroDoLaco : ℕ → Interp τ → Rastro τ
  | 0, _ => .fim
  | n + 1, i =>
    match q.code[i.pc]? with
    | none => .fim
    | some op =>
      evento h q traca tracaCreate op i (decodifica op)
        (match passo cr h q op i with
        | .ok none j => rastroDoLaco n j
        | _ => .fim)

end

section

variable {σ : Type} (w : World σ) (cr : Cripto) (pc : Precompilados)

/-- The trace of the frame of a call, when it starts one. -/
def rastroDoCall (quadro : ExecParams → EavmHost σ → Rastro (EavmHost σ)) (p : CallRequest)
    (s : EavmHost σ) : Rastro (EavmHost σ) :=
  if maxCallDepth ≤ p.depth then .fim
  else
    match precompileId p.para (s.osakaHeight ≤ p.block.number) with
    | some _ => .fim
    | none =>
      match (do
        let _ ← snapshotWorld w
        moveValueWorld w p.caller p.execAddress (if p.delegate then 0 else p.value) .call) s with
      | .ok true t =>
        if w.getCode t.world p.codeAddr = [] then .fim
        else quadro (paramsDeCall p (w.getCode t.world p.codeAddr) t.osakaHeight) t
      | _ => .fim

/-- The trace of the frame of a constructor, when it starts one. -/
def rastroDoCreate (quadro : ExecParams → EavmHost σ → Rastro (EavmHost σ)) (p : CreateRequest)
    (s : EavmHost σ) : Rastro (EavmHost σ) :=
  if maxCallDepth ≤ p.depth then .fim
  else
    let address := enderecoDe cr p (w.bumpNonce s.world p.caller).1
    let s := { s with world := (w.bumpNonce s.world p.caller).2 }
    if w.getCode s.world address ≠ [] then .fim
    else
      match (do
        let _ ← snapshotWorld w
        moveValueWorld w p.caller address p.value .create) s with
      | .ok true t => quadro (paramsDeCreate p address t.osakaHeight) t
      | _ => .fim

/-- The trace of a run under the host that may still nest `n` levels. -/
def rastro : ℕ → ExecParams → EavmHost σ → Rastro (EavmHost σ)
  | 0, p, s =>
    .quadro p s (rastroDoLaco cr (eavmHost w cr pc 0) (quadroDe p) (fun _ _ => .fim)
      (fun _ _ => .fim) (p.gas + 1) (interpInicial p s))
  | n + 1, p, s =>
    .quadro p s (rastroDoLaco cr (eavmHost w cr pc (n + 1)) (quadroDe p)
      (rastroDoCall w (rastro n)) (rastroDoCreate w cr (rastro n)) (p.gas + 1)
      (interpInicial p s))

end

/-! ## The logs along a frame -/

section

variable {τ : Type} {cr : Cripto} {h : Host τ} {q : Quadro}
  {traca : CallRequest → τ → Rastro τ} {tracaCreate : CreateRequest → τ → Rastro τ}

/-- The logs a host answers with are the effective ones of the traces. -/
structure TracaFiel (h : Host τ) (traca : CallRequest → τ → Rastro τ)
    (tracaCreate : CreateRequest → τ → Rastro τ) : Prop where
  call : ∀ {p s r t}, h.call p s = .ok r t →
    r.logs = if r.success then (traca p s).efetivos else []
  create : ∀ {p s r t}, h.create p s = .ok r t →
    r.logs = if r.success then (tracaCreate p s).efetivos else []

/-- An instruction that goes on adds to the logs the effective ones of its event;
one that ends the frame hands them over. -/
structure Anota (q : Quadro) (h : Host τ) (traca : CallRequest → τ → Rastro τ)
    (tracaCreate : CreateRequest → τ → Rastro τ) (op : UInt8) (i : Interp τ) (instr : Instrucao)
    (f : Fluxo) (j : Interp τ) : Prop where
  logs : ∀ resto : Rastro τ, i.logs ++ (evento h q traca tracaCreate op i instr resto).efetivos =
    j.logs ++ resto.efetivos
  fim : ∀ r, f = .fim r → r.logs = j.logs

theorem Quieto.anota {m : Passo τ Fluxo} {op : UInt8} {i j : Interp τ} {instr : Instrucao}
    {f : Fluxo} (hm : Quieto m Continua)
    (hev : ∀ resto, evento h q traca tracaCreate op i instr resto = resto)
    (hrun : m i = .ok f j) : Anota q h traca tracaCreate op i instr f j := by
  obtain ⟨-, hlogs, hc⟩ := (hm i).ok hrun
  exact ⟨fun resto => by rw [hev, hlogs], fun r hr => absurd hr (hc r)⟩

theorem done_run {success : Bool} {ret : Bytes} {i j : Interp τ} {f : Fluxo}
    (hrun : done q success ret i = .ok f j) : j = i ∧ ∀ r, f = .fim r → r.logs = i.logs := by
  unfold done at hrun
  rw [get_bind_run, bind_eq_ok] at hrun
  obtain ⟨gasUsed, t, hsub, hrun⟩ := hrun
  obtain ⟨-, rfl⟩ := lift_eq_ok.mp hsub
  obtain ⟨rfl, rfl⟩ := pure_eq_ok.mp hrun
  refine ⟨rfl, ?_⟩
  rintro r ⟨⟩
  rfl

theorem saiOp_run {success : Bool} {i j : Interp τ} {f : Fluxo}
    (hrun : saiOp q success i = .ok f j) :
    j.logs = i.logs ∧ ∀ r, f = .fim r → r.logs = i.logs := by
  unfold saiOp at hrun
  obtain ⟨o, a, ho, hrun⟩ := bind_eq_ok.mp hrun
  obtain ⟨s, b, hs, hrun⟩ := bind_eq_ok.mp hrun
  obtain ⟨ret, c, hret, hrun⟩ := bind_eq_ok.mp hrun
  have h1 := ((pop_quieto i).ok ho).2.1
  have h2 := ((pop_quieto a).ok hs).2.1
  have h3 := ((memRead_quieto o s b).ok hret).2.1
  obtain ⟨rfl, hfim⟩ := done_run hrun
  have hlogs : j.logs = i.logs := h3.trans (h2.trans h1)
  exact ⟨hlogs, fun r hr => (hfim r hr).trans hlogs⟩

theorem logOp_run {op : UInt8} {n : ℕ} {i j : Interp τ} {f : Fluxo}
    (hrun : logOp q op n i = .ok f j) :
    Continua f ∧ ∃ l k, preparaLog q op n i = .ok l k ∧ j.logs = i.logs ++ [l] := by
  unfold logOp at hrun
  obtain ⟨l, k, hl, hrun⟩ := bind_eq_ok.mp hrun
  rw [modify_bind_run] at hrun
  obtain ⟨rfl, rfl⟩ := pure_eq_ok.mp hrun
  have hk := ((preparaLog_quieto op n i).ok hl).2.1
  exact ⟨Continua.segue, l, k, hl, by rw [hk]⟩

theorem push_segue_run {v : Word} {i j : Interp τ} {f : Fluxo}
    (hrun : (push v >>= fun _ => pure Fluxo.segue : Passo τ Fluxo) i = .ok f j) :
    j.stack.head? = some v := by
  unfold push at hrun
  obtain ⟨⟨⟩, a, ha, hrun⟩ := bind_eq_ok.mp hrun
  obtain ⟨rfl, rfl⟩ := pure_eq_ok.mp hrun
  rw [get_bind_run] at ha
  obtain ⟨⟨⟩, b, -, hset⟩ := bind_eq_ok.mp ha
  cases hset
  rfl

/-- The request of a call, its answer, and the logs merged from it. -/
theorem callOp_run {op : UInt8} {kind : CallKind} {i j : Interp τ} {f : Fluxo}
    (hrun : callOp h q op kind i = .ok f j) :
    Continua f ∧ ∃ req ro rsz k r s, preparaCall q op kind i = .ok (req, ro, rsz) k ∧
      k.host = i.host ∧ h.call req i.host = .ok r s ∧ j.host = s ∧
      j.stack.head? = some (ofBool r.success) ∧ j.logs = i.logs ++ r.logs := by
  unfold callOp at hrun
  obtain ⟨⟨req, ro, rsz⟩, k, hprep, hrun⟩ := bind_eq_ok.mp hrun
  obtain ⟨r, k', hno, hrun⟩ := bind_eq_ok.mp hrun
  obtain ⟨hkhost, hklogs, -⟩ := (preparaCall_quieto op kind i).ok hprep
  have hcall : h.call req i.host = .ok r k'.host ∧ k' = { k with host := k'.host } := by
    have hruns := noHost_runs (m := h.call req) (i := k)
      (Q := fun a s => h.call req k.host = .ok a s) (E := fun _ _ => True)
      (Runs.intro (fun _ _ hr => hr) fun _ _ _ => trivial)
    rw [← hkhost]
    exact hruns.ok hno
  obtain ⟨hcall, hk'⟩ := hcall
  unfold concluiCall at hrun
  obtain ⟨⟨⟩, a, ha, hrun⟩ := bind_eq_ok.mp hrun
  rw [modify_bind_run] at hrun
  obtain ⟨⟨⟩, c, hdev, hrun⟩ := bind_eq_ok.mp hrun
  rw [modify_bind_run] at hrun
  obtain ⟨hahost, halogs, -⟩ := (spend_quieto r.gasUsed k').ok ha
  obtain ⟨hchost, hclogs, -⟩ := (devolve_quieto ro rsz r.returnData _).ok hdev
  obtain ⟨hjhost, hjlogs, hcont⟩ := (push_segue_quieto (ofBool r.success) _).ok hrun
  refine ⟨hcont, req, ro, rsz, k, r, k'.host, hprep, hkhost, hcall, ?_, push_segue_run hrun, ?_⟩
  · exact hjhost.trans (hchost.trans hahost)
  · have hk'logs : k'.logs = i.logs := by
      rw [hk']
      exact hklogs
    rw [hjlogs]
    change c.logs ++ r.logs = _
    rw [hclogs]
    change a.logs ++ r.logs = _
    rw [halogs, hk'logs]

theorem createOp_run {op : UInt8} {comSalt : Bool} {i j : Interp τ} {f : Fluxo}
    (hrun : createOp h q op comSalt i = .ok f j) :
    Continua f ∧ ∃ req k r s, preparaCreate q op comSalt i = .ok req k ∧
      k.host = i.host ∧ h.create req i.host = .ok r s ∧ j.host = s ∧
      j.logs = i.logs ++ r.logs := by
  unfold createOp at hrun
  obtain ⟨req, k, hprep, hrun⟩ := bind_eq_ok.mp hrun
  obtain ⟨r, k', hno, hrun⟩ := bind_eq_ok.mp hrun
  obtain ⟨hkhost, hklogs, -⟩ := (preparaCreate_quieto op comSalt i).ok hprep
  have hcall : h.create req i.host = .ok r k'.host ∧ k' = { k with host := k'.host } := by
    have hruns := noHost_runs (m := h.create req) (i := k)
      (Q := fun a s => h.create req k.host = .ok a s) (E := fun _ _ => True)
      (Runs.intro (fun _ _ hr => hr) fun _ _ _ => trivial)
    rw [← hkhost]
    exact hruns.ok hno
  obtain ⟨hcall, hk'⟩ := hcall
  unfold concluiCreate at hrun
  obtain ⟨⟨⟩, a, ha, hrun⟩ := bind_eq_ok.mp hrun
  rw [modify_bind_run] at hrun
  obtain ⟨hahost, halogs, -⟩ := (spend_quieto r.gasUsed k').ok ha
  obtain ⟨hjhost, hjlogs, hcont⟩ := (push_segue_quieto _ _).ok hrun
  refine ⟨hcont, req, k, r, k'.host, hprep, hkhost, hcall, hjhost.trans hahost, ?_⟩
  have hk'logs : k'.logs = i.logs := by
    rw [hk']
    exact hklogs
  rw [hjlogs]
  change a.logs ++ r.logs = _
  rw [halogs, hk'logs]

theorem noHost_logs {α : Type} {m : EStateM Parada τ α} {i j : Interp τ} {a : α}
    (hrun : noHost m i = .ok a j) : j.logs = i.logs := by
  unfold noHost at hrun
  split at hrun
  case h_1 => obtain ⟨-, rfl⟩ := hrun; rfl
  case h_2 => cases hrun

theorem sstoreOp_run {op : UInt8} {i j : Interp τ} {f : Fluxo}
    (hrun : sstoreOp h q op i = .ok f j) : Continua f ∧ j.logs = i.logs := by
  unfold sstoreOp at hrun
  obtain ⟨_, a, ha, hrun⟩ := bind_eq_ok.mp hrun
  obtain ⟨k, b, hb, hrun⟩ := bind_eq_ok.mp hrun
  obtain ⟨v, c, hc, hrun⟩ := bind_eq_ok.mp hrun
  rw [get_bind_run] at hrun
  obtain ⟨_, e, he, hrun⟩ := bind_eq_ok.mp hrun
  obtain ⟨_, g, hg, hrun⟩ := bind_eq_ok.mp hrun
  obtain ⟨rfl, rfl⟩ := pure_eq_ok.mp hrun
  have h1 := ((exige_quieto _ _ i).ok ha).2.1
  have h2 := ((pop_quieto a).ok hb).2.1
  have h3 := ((pop_quieto b).ok hc).2.1
  have h4 := ((spend_quieto _ c).ok he).2.1
  exact ⟨Continua.segue, (noHost_logs hg).trans (h4.trans (h3.trans (h2.trans h1)))⟩

theorem tstoreOp_run {op : UInt8} {i j : Interp τ} {f : Fluxo}
    (hrun : tstoreOp h q op i = .ok f j) : Continua f ∧ j.logs = i.logs := by
  unfold tstoreOp at hrun
  obtain ⟨_, a, ha, hrun⟩ := bind_eq_ok.mp hrun
  obtain ⟨_, b, hb, hrun⟩ := bind_eq_ok.mp hrun
  obtain ⟨_, c, hc, hrun⟩ := bind_eq_ok.mp hrun
  obtain ⟨k, e, he, hrun⟩ := bind_eq_ok.mp hrun
  obtain ⟨v, g, hg, hrun⟩ := bind_eq_ok.mp hrun
  obtain ⟨_, l, hl, hrun⟩ := bind_eq_ok.mp hrun
  obtain ⟨rfl, rfl⟩ := pure_eq_ok.mp hrun
  have h1 := ((spend_quieto _ i).ok ha).2.1
  have h2 := ((exige_quieto _ _ a).ok hb).2.1
  have h3 := ((exige_quieto _ _ b).ok hc).2.1
  have h4 := ((pop_quieto c).ok he).2.1
  have h5 := ((pop_quieto e).ok hg).2.1
  exact ⟨Continua.segue,
    (noHost_logs hl).trans (h5.trans (h4.trans (h3.trans (h2.trans h1))))⟩

theorem executa_anota (ht : TracaFiel h traca tracaCreate) (op : UInt8) (instr : Instrucao)
    {i j : Interp τ} {f : Fluxo} (hrun : executa cr h q op instr i = .ok f j) :
    Anota q h traca tracaCreate op i instr f j := by
  rcases instr.casos with hi | rfl | ⟨success, rfl⟩ | rfl | rfl | ⟨n, rfl⟩ | ⟨comSalt, rfl⟩ |
    ⟨kind, rfl⟩
  · refine (executa_quieto op instr hi).anota (fun resto => ?_) hrun
    cases instr <;> first | rfl | cases hi
  · obtain ⟨rfl, hfim⟩ := done_run hrun
    exact ⟨fun _ => rfl, hfim⟩
  · obtain ⟨hlogs, hfim⟩ := saiOp_run hrun
    exact ⟨fun resto => by rw [hlogs]; rfl, fun r hr => (hfim r hr).trans hlogs.symm⟩
  · obtain ⟨hc, hlogs⟩ := sstoreOp_run hrun
    exact ⟨fun resto => by rw [hlogs]; rfl, fun r hr => absurd hr (hc r)⟩
  · obtain ⟨hc, hlogs⟩ := tstoreOp_run hrun
    exact ⟨fun resto => by rw [hlogs]; rfl, fun r hr => absurd hr (hc r)⟩
  · obtain ⟨hc, l, k, hl, hlogs⟩ := logOp_run hrun
    refine ⟨fun resto => ?_, fun r hr => absurd hr (hc r)⟩
    rw [hlogs, List.append_assoc]
    simp only [evento, hl]
    rfl
  · obtain ⟨hc, req, k, r, s, hprep, hkhost, hcall, -, hlogs⟩ := createOp_run hrun
    refine ⟨fun resto => ?_, fun r hr => absurd hr (hc r)⟩
    rw [hlogs, List.append_assoc, ht.create hcall]
    simp only [evento, hprep, hkhost, hcall, deuCertoCreate]
    rfl
  · obtain ⟨hc, req, ro, rsz, k, r, s, hprep, hkhost, hcall, -, -, hlogs⟩ := callOp_run hrun
    refine ⟨fun resto => ?_, fun r hr => absurd hr (hc r)⟩
    rw [hlogs, List.append_assoc, ht.call hcall]
    simp only [evento, hprep, hkhost, hcall, deuCerto]
    rfl

theorem passo_anota (ht : TracaFiel h traca tracaCreate) {op : UInt8} {i j : Interp τ}
    {r : Option ExecResult} (hrun : passo cr h q op i = .ok r j) :
    (∀ resto : Rastro τ,
      i.logs ++ (evento h q traca tracaCreate op i (decodifica op) resto).efetivos =
        j.logs ++ resto.efetivos) ∧ ∀ res, r = some res → res.logs = j.logs := by
  unfold passo at hrun
  rw [get_bind_run] at hrun
  obtain ⟨seguinte, a, ha, hturno⟩ := bind_eq_ok.mp hrun
  obtain ⟨-, rfl⟩ := lift_eq_ok.mp ha
  obtain ⟨f, b, hexec, hrun⟩ := bind_eq_ok.mp hturno
  have hanota := executa_anota ht op _ hexec
  cases f with
  | segue =>
    dsimp only at hrun
    rw [modify_bind_run] at hrun
    obtain ⟨rfl, rfl⟩ := pure_eq_ok.mp hrun
    exact ⟨hanota.logs, by rintro res ⟨⟩⟩
  | salta np =>
    dsimp only at hrun
    rw [modify_bind_run] at hrun
    obtain ⟨rfl, rfl⟩ := pure_eq_ok.mp hrun
    exact ⟨hanota.logs, by rintro res ⟨⟩⟩
  | fim r =>
    obtain ⟨rfl, rfl⟩ := pure_eq_ok.mp hrun
    refine ⟨hanota.logs, ?_⟩
    rintro res ⟨⟩
    exact hanota.fim r rfl

/-- The logs of a frame are those it had, and then the effective ones of its trace. -/
theorem laco_logs (ht : TracaFiel h traca tracaCreate) (n : ℕ) :
    ∀ {i j : Interp τ} {r : ExecResult}, laco cr h q n i = .ok r j →
      r.logs = i.logs ++ (rastroDoLaco cr h q traca tracaCreate n i).efetivos := by
  induction n with
  | zero => exact fun hrun => by cases hrun
  | succ n ih =>
    intro i j r hrun
    unfold laco at hrun
    rw [get_bind_run] at hrun
    unfold rastroDoLaco
    cases hop : q.code[i.pc]? with
    | none =>
      rw [hop] at hrun
      simp only [paraNoFim, get_bind_run] at hrun
      obtain ⟨gasUsed, a, ha, hrun⟩ := bind_eq_ok.mp hrun
      obtain ⟨-, rfl⟩ := lift_eq_ok.mp ha
      obtain ⟨rfl, rfl⟩ := pure_eq_ok.mp hrun
      exact (List.append_nil _).symm
    | some op =>
      rw [hop] at hrun
      obtain ⟨res, a, hpasso, hrun⟩ := bind_eq_ok.mp hrun
      obtain ⟨hlogs, hres⟩ := passo_anota ht hpasso
      cases res with
      | some res =>
        obtain ⟨rfl, rfl⟩ := pure_eq_ok.mp hrun
        simp only [hpasso, hlogs]
        exact (hres _ rfl).trans (List.append_nil _).symm
      | none =>
        simp only [hpasso, hlogs]
        exact ih hrun

theorem runEavm_logs (ht : TracaFiel h traca tracaCreate) {p : ExecParams} {s s' : τ}
    {r : ExecResult} (hrun : runEavm cr h p s = .ok r s') :
    r.logs = (rastroDoLaco cr h (quadroDe p) traca tracaCreate (p.gas + 1)
      (interpInicial p s)).efetivos := by
  unfold runEavm at hrun
  split at hrun
  case h_1 r' i hl =>
    obtain ⟨rfl, rfl⟩ := hrun
    exact laco_logs ht _ hl
  case h_2 => cases hrun

end

/-! ## The logs the host answers with -/

section

variable {σ : Type} {w : World σ} {cr : Cripto} {pc : Precompilados} {h : Host (EavmHost σ)}
  {quadro : ExecParams → EavmHost σ → Rastro (EavmHost σ)}

/-- The frames under `h` have the traces of `quadro`. -/
def QuadroFiel (cr : Cripto) (h : Host (EavmHost σ)) (quadro : ExecParams → EavmHost σ → Rastro (EavmHost σ)) :
    Prop :=
  ∀ {p s r t}, runEavm cr h p s = .ok r t → r.logs = (quadro p s).efetivos

/-- The run of a frame, answered. -/
theorem tenta_run {τ α : Type} {m : EStateM Parada τ α} {s t : τ} {r : Except EavmError α}
    (hrun : tenta m s = .ok r t) : ∀ a, r = .ok a → m s = .ok a t := by
  rintro a rfl
  unfold tenta at hrun
  split at hrun
  case h_1 b u hms =>
    cases hrun
    exact hms
  case h_2 => cases hrun
  case h_3 => cases hrun

theorem chamaPrecompile_logs {p : CallRequest} {id : ℕ} {s t : EavmHost σ} {r : CallOutcome}
    (hrun : chamaPrecompile w cr pc p id s = .ok r t) : r.logs = [] := by
  have hlogs : Runs (chamaPrecompile w cr pc p id) s (fun r _ => r.logs = []) fun _ _ => True := by
    unfold chamaPrecompile
    refine Runs.bind (Runs.intro (fun m u _ => ?_) fun _ _ _ => trivial)
    refine Runs.bind (Runs.intro (fun moveu u' _ => ?_) fun _ _ _ => trivial)
    refine Runs.ite (fun _ => Runs.modify_bind (Runs.pure_intro rfl)) fun _ => ?_
    refine Runs.bind (Runs.intro (fun r v _ => ?_) fun _ _ _ => trivial)
    cases r with
    | ok o => exact Runs.pure_intro rfl
    | error e => exact Runs.modify_bind (Runs.pure_intro rfl)
  exact hlogs.ok hrun

theorem rodaCall_logs (hq : QuadroFiel cr h quadro) {p : CallRequest} {code : Bytes} {m : ℕ}
    {s t : EavmHost σ} {r : CallOutcome} (hrun : rodaCall w cr h p code m s = .ok r t) :
    r.logs = if r.success then (quadro (paramsDeCall p code s.osakaHeight) s).efetivos else [] := by
  unfold rodaCall at hrun
  rw [get_bind_run] at hrun
  obtain ⟨res, u, hres, hfim⟩ := bind_eq_ok.mp hrun
  cases res with
  | error e =>
    simp only [revertWorld, modify_bind_run] at hfim
    obtain ⟨rfl, -⟩ := pure_eq_ok.mp hfim
    rfl
  | ok res =>
    have hlogs := hq (tenta_run hres res rfl)
    dsimp only at hfim
    by_cases hs : res.success = true
    · rw [if_pos hs] at hfim
      obtain ⟨rfl, -⟩ := pure_eq_ok.mp hfim
      exact hlogs
    · rw [if_neg hs] at hfim
      simp only [revertWorld, modify_bind_run] at hfim
      obtain ⟨rfl, -⟩ := pure_eq_ok.mp hfim
      rfl

theorem executaCall_logs (hq : QuadroFiel cr h quadro) {p : CallRequest} {s t : EavmHost σ}
    {r : CallOutcome} (hrun : executaCall w cr pc h p s = .ok r t) :
    r.logs = if r.success then (rastroDoCall w quadro p s).efetivos else [] := by
  unfold executaCall at hrun
  unfold rastroDoCall
  by_cases hd : maxCallDepth ≤ p.depth
  · rw [if_pos hd] at hrun
    obtain ⟨rfl, -⟩ := pure_eq_ok.mp hrun
    rfl
  · rw [if_neg hd, get_bind_run] at hrun
    rw [if_neg hd]
    cases hid : precompileId p.para (s.osakaHeight ≤ p.block.number) with
    | some id =>
      rw [hid] at hrun
      rw [chamaPrecompile_logs hrun]
      exact (ite_self _).symm
    | none =>
      rw [hid] at hrun
      obtain ⟨m, u, hsnap, hresto⟩ := bind_eq_ok.mp hrun
      obtain ⟨moveu, v, hmove, hfim⟩ := bind_eq_ok.mp hresto
      have hpar := bind_run_ok hsnap (f := fun _ =>
        moveValueWorld w p.caller p.execAddress (if p.delegate then 0 else p.value) .call)
      rw [hmove] at hpar
      cases moveu with
      | false =>
        simp only [if_true, revertWorld, modify_bind_run] at hfim
        obtain ⟨rfl, -⟩ := pure_eq_ok.mp hfim
        rfl
      | true =>
        simp only [Bool.true_eq_false, if_false, get_bind_run] at hfim
        simp only [hpar]
        by_cases hcode : w.getCode v.world p.codeAddr = []
        · rw [if_pos hcode] at hfim
          obtain ⟨rfl, -⟩ := pure_eq_ok.mp hfim
          rw [if_pos hcode]
          rfl
        · rw [if_neg hcode] at hfim
          rw [if_neg hcode]
          exact rodaCall_logs hq hfim

theorem instala_logs {p : CreateRequest} {address : Address} {m : ℕ} {res : ExecResult}
    {s t : EavmHost σ} {r : CreateOutcome} (hrun : instala w p address m res s = .ok r t) :
    r.logs = if r.success then res.logs else [] := by
  have hlogs : Runs (instala w p address m res) s
      (fun r _ => r.logs = if r.success then res.logs else []) fun _ _ => True := by
    unfold instala
    refine Runs.ite (fun _ => Runs.modify_bind (Runs.pure_intro rfl)) fun _ => ?_
    exact Runs.modify_bind (Runs.pure_intro rfl)
  exact hlogs.ok hrun

theorem rodaCreate_logs (hq : QuadroFiel cr h quadro) {p : CreateRequest} {address : Address}
    {m : ℕ} {s t : EavmHost σ} {r : CreateOutcome}
    (hrun : rodaCreate w cr h p address m s = .ok r t) :
    r.logs =
      if r.success then (quadro (paramsDeCreate p address s.osakaHeight) s).efetivos else [] := by
  unfold rodaCreate at hrun
  rw [get_bind_run] at hrun
  obtain ⟨res, u, hres, hfim⟩ := bind_eq_ok.mp hrun
  cases res with
  | error e =>
    simp only [revertWorld, modify_bind_run] at hfim
    obtain ⟨rfl, -⟩ := pure_eq_ok.mp hfim
    rfl
  | ok res =>
    have hlogs := hq (tenta_run hres res rfl)
    dsimp only at hfim
    by_cases hs : res.success = true
    · rw [if_pos hs] at hfim
      rw [← hlogs]
      exact instala_logs hfim
    · rw [if_neg hs] at hfim
      simp only [revertWorld, modify_bind_run] at hfim
      obtain ⟨rfl, -⟩ := pure_eq_ok.mp hfim
      rfl

theorem executaCreate_logs (hq : QuadroFiel cr h quadro) {p : CreateRequest} {s t : EavmHost σ}
    {r : CreateOutcome} (hrun : executaCreate w cr h p s = .ok r t) :
    r.logs = if r.success then (rastroDoCreate w cr quadro p s).efetivos else [] := by
  unfold executaCreate at hrun
  unfold rastroDoCreate
  by_cases hd : maxCallDepth ≤ p.depth
  · rw [if_pos hd] at hrun
    obtain ⟨rfl, -⟩ := pure_eq_ok.mp hrun
    rfl
  · rw [if_neg hd] at hrun
    rw [if_neg hd]
    obtain ⟨nonce, u, hnonce, hresto⟩ := bind_eq_ok.mp hrun
    obtain ⟨rfl, rfl⟩ : (w.bumpNonce s.world p.caller).1 = nonce ∧
        { s with world := (w.bumpNonce s.world p.caller).2 } = u := by
      unfold bumpNonceWorld at hnonce
      injection hnonce with h1 h2
      exact ⟨h1, h2⟩
    rw [get_bind_run] at hresto
    dsimp only at hresto ⊢
    by_cases hcode : w.getCode (w.bumpNonce s.world p.caller).2
        (enderecoDe cr p (w.bumpNonce s.world p.caller).1) ≠ []
    · rw [if_pos hcode] at hresto
      obtain ⟨rfl, -⟩ := pure_eq_ok.mp hresto
      rfl
    · rw [if_neg hcode] at hresto
      rw [if_neg hcode]
      obtain ⟨m, v, hsnap, hresto⟩ := bind_eq_ok.mp hresto
      obtain ⟨moveu, v', hmove, hfim⟩ := bind_eq_ok.mp hresto
      have hpar := bind_run_ok hsnap (f := fun _ => moveValueWorld w p.caller
        (enderecoDe cr p (w.bumpNonce s.world p.caller).1) p.value .create)
      change moveValueWorld w p.caller (enderecoDe cr p (w.bumpNonce s.world p.caller).1)
        p.value .create v = _ at hmove
      rw [hmove] at hpar
      cases moveu with
      | false =>
        simp only [if_true, revertWorld, modify_bind_run] at hfim
        obtain ⟨rfl, -⟩ := pure_eq_ok.mp hfim
        rfl
      | true =>
        simp only [Bool.true_eq_false, if_false] at hfim
        simp only [hpar]
        exact rodaCreate_logs hq hfim

theorem tracaFiel_de (hq : QuadroFiel cr h quadro) :
    TracaFiel (hostBase w (executaCall w cr pc h) (executaCreate w cr h)) (rastroDoCall w quadro)
      (rastroDoCreate w cr quadro) where
  call hrun := executaCall_logs hq hrun
  create hrun := executaCreate_logs hq hrun

/-- At every level of nesting the logs of a result are the effective ones of its
trace. -/
theorem rastro_fiel (n : ℕ) : QuadroFiel cr (eavmHost w cr pc n) (rastro w cr pc n) := by
  induction n with
  | zero =>
    intro p s r t hrun
    have ht : TracaFiel (eavmHost w cr pc 0) (fun _ _ => .fim) fun _ _ => .fim :=
      { call := fun hrun => by cases hrun
        create := fun hrun => by cases hrun }
    exact runEavm_logs ht hrun
  | succ n ih =>
    intro p s r t hrun
    exact runEavm_logs (tracaFiel_de ih) hrun

end

/-! ## The frames of a static one -/

section

/-- Every frame in a trace is static. -/
def Rastro.Estatico {τ : Type} (r : Rastro τ) : Prop := ∀ x ∈ r.quadros, x.1.isStatic = true

theorem Rastro.fim_estatico {τ : Type} : (Rastro.fim : Rastro τ).Estatico := fun _ hx =>
  absurd hx List.not_mem_nil

theorem Rastro.filho_estatico {τ : Type} {success : Bool} {dentro resto : Rastro τ}
    (hd : dentro.Estatico) (hr : resto.Estatico) : (filho success dentro resto).Estatico :=
  List.forall_mem_append.mpr ⟨hd, hr⟩

variable {τ : Type} {cr : Cripto} {h : Host τ} {q : Quadro}
  {traca : CallRequest → τ → Rastro τ} {tracaCreate : CreateRequest → τ → Rastro τ}

/-- A static frame creates nothing, and its calls are static. -/
theorem evento_estatico (hq : q.isStatic = true)
    (ht : ∀ p s, p.isStatic = true → (traca p s).Estatico) (op : UInt8) (i : Interp τ)
    (instr : Instrucao) {resto : Rastro τ} (hr : resto.Estatico) :
    (evento h q traca tracaCreate op i instr resto).Estatico := by
  unfold evento
  split
  case h_1 n =>
    split
    · exact hr
    · exact hr
  case h_2 kind =>
    split
    case h_1 req ro rsz j hprep =>
      have herda := ((preparaCall_quieto op kind i).ok hprep).2.2
      exact Rastro.filho_estatico (ht _ _ (herda hq).1) hr
    case h_2 => exact hr
  case h_3 comSalt =>
    split
    case h_1 req j hprep =>
      have hescrita := ((preparaCreate_quieto op comSalt i).ok hprep).2.2
      rw [hq] at hescrita
      cases hescrita
    case h_2 => exact hr
  case h_4 => exact hr

theorem rastroDoLaco_estatico (hq : q.isStatic = true)
    (ht : ∀ p s, p.isStatic = true → (traca p s).Estatico) (n : ℕ) :
    ∀ i : Interp τ, (rastroDoLaco cr h q traca tracaCreate n i).Estatico := by
  induction n with
  | zero => exact fun _ => Rastro.fim_estatico
  | succ n ih =>
    intro i
    unfold rastroDoLaco
    cases q.code[i.pc]? with
    | none => exact Rastro.fim_estatico
    | some op =>
      refine evento_estatico hq ht op i _ ?_
      split
      · exact ih _
      · exact Rastro.fim_estatico

end

section

variable {σ : Type} {w : World σ} {cr : Cripto} {pc : Precompilados}

theorem rastroDoCall_estatico {quadro : ExecParams → EavmHost σ → Rastro (EavmHost σ)}
    (hq : ∀ p s, p.isStatic = true → (quadro p s).Estatico) (p : CallRequest) (s : EavmHost σ)
    (hp : p.isStatic = true) : (rastroDoCall w quadro p s).Estatico := by
  unfold rastroDoCall
  split
  · exact Rastro.fim_estatico
  · split
    · exact Rastro.fim_estatico
    · split
      · split
        · exact Rastro.fim_estatico
        · exact hq _ _ hp
      · exact Rastro.fim_estatico

/-- A static frame starts static ones only, directly or through others. -/
theorem rastro_estatico (n : ℕ) :
    ∀ p s, p.isStatic = true → (rastro w cr pc n p s).Estatico := by
  induction n with
  | zero =>
    intro p s hp
    refine List.forall_mem_cons.mpr ⟨hp, ?_⟩
    exact rastroDoLaco_estatico hp (fun _ _ _ => Rastro.fim_estatico) _ _
  | succ n ih =>
    intro p s hp
    refine List.forall_mem_cons.mpr ⟨hp, ?_⟩
    exact rastroDoLaco_estatico hp (rastroDoCall_estatico ih) _ _

end

end Eavm
end Eav7
