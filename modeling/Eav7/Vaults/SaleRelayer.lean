import Mathlib.Data.List.Basic
import Mathlib.Data.Nat.Notation
import Mathlib.Order.Basic

/-!
# The relayer of the sale

Each tick loads the file of intents, scans the payment of every pending one and submits its
grant. The object of an intent is written before the call that may fail, and the file is saved
whole, once, if any grant went through. So a failed grant stays retryable exactly when no
other grant of the same tick succeeds.
-/

namespace Eav7.SaleRelayer

/-! ## The script -/

structure Intent where
  id : String
  status : String
  beneficiary0x : String
  rail : String
  payAmount : String
  e7Amount : String
  chain : String
  paymentTx : Option String
  paymentId : Option String
  grantTx : Option String
  deriving DecidableEq

/-- The payment that a scan finds. -/
structure Hit where
  txHash : String
  logIndex : ℕ

/-- What a grant that does not throw comes to. -/
inductive Envio where
  | enviado (hash : String)
  | dryRun

def Envio.grantTx : Envio → String
  | .enviado hash => hash
  | .dryRun => "dry-run"

/-- The functions of the platform that the script calls. -/
structure Plataforma where
  sha256 : String → String
  toLowerCase : String → String

/-- What the chains answer during one tick, for the intent at each position. -/
structure Mundo where
  scanPayment : ℕ → Intent → Except String (Option Hit)
  submitGrant : ℕ → Intent → Except String Envio

def paymentId (pl : Plataforma) (chainKey txHash : String) (logIndex : ℕ) : String :=
  "0x" ++ pl.sha256 s!"{chainKey}:{pl.toLowerCase txHash}:{logIndex}"

def markPaid (pl : Plataforma) (intent : Intent) (hit : Hit) : Intent :=
  { intent with
    status := "paid"
    paymentTx := some hit.txHash
    paymentId := some (paymentId pl intent.chain hit.txHash hit.logIndex) }

/-- The object after the call, and whether the call went through. -/
def markPaidAndGrant (pl : Plataforma) (m : Mundo) (k : ℕ) (intent : Intent) (hit : Hit) :
    Intent × Bool :=
  let intent := markPaid pl intent hit
  match m.submitGrant k intent with
  -- what was written before the call stays in the object
  | .error _ => (intent, false)
  | .ok envio => ({ intent with grantTx := some envio.grantTx, status := "granted" }, true)

def Intent.colide (intent i : Intent) : Bool :=
  i.status == "pending" && i.rail == intent.rail && i.payAmount == intent.payAmount

def collisions (intents : List Intent) (intent : Intent) : List Intent :=
  intents.filter intent.colide

structure Tick where
  intents : List Intent
  dirty : Bool

/-- The body of the loop, for the intent at a position. -/
def Tick.visita (pl : Plataforma) (m : Mundo) (t : Tick) (k : ℕ) : Tick :=
  match t.intents[k]? with
  | none => t
  | some intent =>
    if intent.status ≠ "pending" then t
    else if 1 < (collisions t.intents intent).length then t
    else match m.scanPayment k intent with
      | .error _ | .ok none => t
      | .ok (some hit) =>
        let r := markPaidAndGrant pl m k intent hit
        ⟨t.intents.set k r.1, t.dirty || r.2⟩

def tick (pl : Plataforma) (m : Mundo) (arquivo : List Intent) : List Intent :=
  let t := (List.range arquivo.length).foldl (Tick.visita pl m) ⟨arquivo, false⟩
  if t.dirty then t.intents else arquivo

/-! ## What a tick does with one intent -/

section

variable (pl : Plataforma)

/-- The intent at a position, when a tick gets as far as scanning its payment. -/
def processa (arquivo : List Intent) (k : ℕ) : Option Intent :=
  match arquivo[k]? with
  | none => none
  | some intent =>
    if intent.status = "pending" ∧ (collisions arquivo intent).length ≤ 1 then some intent
    else none

inductive Desfecho where
  | intocado
  | falhou (hit : Hit)
  | concedida (hit : Hit) (envio : Envio)

/-- The outcome of a tick for the intent at a position of the file it loaded. -/
def desfecho (m : Mundo) (arquivo : List Intent) (k : ℕ) : Desfecho :=
  match processa arquivo k with
  | none => .intocado
  | some intent =>
    match m.scanPayment k intent with
    | .error _ | .ok none => .intocado
    | .ok (some hit) =>
      match m.submitGrant k (markPaid pl intent hit) with
      | .error _ => .falhou hit
      | .ok envio => .concedida hit envio

def Desfecho.concede : Desfecho → Bool
  | .concedida _ _ => true
  | _ => false

/-- The object that an outcome leaves. -/
def Desfecho.objeto (intent : Intent) : Desfecho → Intent
  | .intocado => intent
  | .falhou hit => markPaid pl intent hit
  | .concedida hit envio =>
    { markPaid pl intent hit with grantTx := some envio.grantTx, status := "granted" }

variable {pl} {m : Mundo} {arquivo : List Intent} {intent : Intent} {k n : ℕ}

theorem processa_eq_some : processa arquivo k = some intent ↔ arquivo[k]? = some intent ∧
    intent.status = "pending" ∧ (collisions arquivo intent).length ≤ 1 := by
  unfold processa
  cases arquivo[k]? with
  | none => exact ⟨nofun, fun h => nomatch h.1⟩
  | some i =>
    constructor
    · intro h
      dsimp only at h
      split_ifs at h with hi
      cases h
      exact ⟨rfl, hi⟩
    · rintro ⟨hi, hpendente⟩
      cases hi
      exact if_pos hpendente

theorem desfecho_of_none (h : processa arquivo k = none) : desfecho pl m arquivo k = .intocado := by
  unfold desfecho
  rw [h]

theorem exists_of_desfecho (h : desfecho pl m arquivo k ≠ .intocado) :
    ∃ i, processa arquivo k = some i := by
  cases hprocessa : processa arquivo k with
  | none => exact absurd (desfecho_of_none hprocessa) h
  | some i => exact ⟨i, rfl⟩

variable (pl) in
/-- An outcome leaves the object as it was or out of the pending ones. -/
theorem objeto_cases (d : Desfecho) (intent : Intent) :
    d.objeto pl intent = intent ∨ (d.objeto pl intent).status ≠ "pending" := by
  cases d with
  | intocado => exact .inl rfl
  | falhou hit => exact .inr (show "paid" ≠ "pending" by decide)
  | concedida hit envio => exact .inr (show "granted" ≠ "pending" by decide)

/-! ## The loop -/

/-- The objects after the first positions were visited. -/
def parcial (pl : Plataforma) (m : Mundo) (arquivo : List Intent) (n : ℕ) : List Intent :=
  arquivo.mapIdx fun k i => if k < n then (desfecho pl m arquivo k).objeto pl i else i

theorem parcial_getElem? : (parcial pl m arquivo n)[k]? =
    arquivo[k]?.map fun i => if k < n then (desfecho pl m arquivo k).objeto pl i else i :=
  List.getElem?_mapIdx

theorem parcial_succ_of_ne (h : k ≠ n) :
    (parcial pl m arquivo (n + 1))[k]? = (parcial pl m arquivo n)[k]? := by
  rw [parcial_getElem?, parcial_getElem?]
  simp only [show k < n + 1 ↔ k < n by omega]

theorem parcial_set (h : arquivo[n]? = some intent) :
    (parcial pl m arquivo n).set n ((desfecho pl m arquivo n).objeto pl intent) =
      parcial pl m arquivo (n + 1) := by
  refine List.ext_getElem? fun k => ?_
  rw [List.getElem?_set]
  by_cases hk : n = k
  · subst hk
    have hlen : n < (parcial pl m arquivo n).length := by
      unfold parcial
      rw [List.length_mapIdx]
      exact (List.getElem?_eq_some_iff.mp h).1
    rw [if_pos rfl, if_pos hlen, parcial_getElem?, h, Option.map_some,
      if_pos (Nat.lt_succ_self n)]
  · rw [if_neg hk, parcial_succ_of_ne (Ne.symm hk)]

theorem parcial_succ (h : desfecho pl m arquivo n = .intocado) :
    parcial pl m arquivo (n + 1) = parcial pl m arquivo n := by
  refine List.ext_getElem? fun k => ?_
  by_cases hk : k = n
  · rw [parcial_getElem?, parcial_getElem?, hk, h]
    refine congrArg (Option.map · arquivo[n]?) (funext fun i => ?_)
    rw [if_pos (Nat.lt_succ_self n), if_neg (Nat.lt_irrefl n)]
    rfl
  · exact parcial_succ_of_ne hk

section

variable {p : Intent → Bool}

theorem filter_mapIdx_eq {f : ℕ → Intent → Intent} {l : List Intent}
    (h : ∀ k i, l[k]? = some i → (p i = true → f k i = i) ∧ (p (f k i) = true → p i = true)) :
    (l.mapIdx f).filter p = l.filter p := by
  induction l generalizing f with
  | nil => rfl
  | cons i l ih =>
    obtain ⟨hsim, hvolta⟩ := h 0 i rfl
    rw [List.mapIdx_cons, List.filter_cons, List.filter_cons, ih fun k => h (k + 1)]
    by_cases hp : p i = true
    · rw [hsim hp]
    · rw [if_neg hp, if_neg fun hf => hp (hvolta hf)]

theorem length_filter_mapIdx_le {f : ℕ → Intent → Intent} {l : List Intent}
    (h : ∀ k i, p (f k i) = true → p i = true) :
    ((l.mapIdx f).filter p).length ≤ (l.filter p).length := by
  induction l generalizing f with
  | nil => exact Nat.le_refl _
  | cons i l ih =>
    have hresto := ih fun k => h (k + 1)
    rw [List.mapIdx_cons, List.filter_cons, List.filter_cons]
    by_cases hf : p (f 0 i) = true
    · rw [if_pos hf, if_pos (h 0 i hf)]
      exact Nat.succ_le_succ hresto
    · rw [if_neg hf]
      split_ifs
      · exact Nat.le_trans hresto (Nat.le_succ _)
      · exact hresto

end

/-- Two intents that collide have the same collisions. -/
theorem collisions_congr {i : Intent} (h : intent.colide i = true) :
    collisions arquivo i = collisions arquivo intent := by
  unfold Intent.colide at h
  simp only [Bool.and_eq_true, beq_iff_eq] at h
  unfold collisions Intent.colide
  rw [h.1.2, h.2]

/-- An outcome makes no new collision. -/
theorem colide_objeto {d : Desfecho} {i : Intent} (h : intent.colide (d.objeto pl i) = true) :
    intent.colide i = true := by
  rcases objeto_cases pl d i with hmesmo | hstatus
  · rwa [hmesmo] at h
  · simp [Intent.colide, hstatus] at h

theorem colide_parcial {i : Intent} (h : intent.colide
    (if k < n then (desfecho pl m arquivo k).objeto pl i else i) = true) :
    intent.colide i = true := by
  split_ifs at h
  · exact colide_objeto h
  · exact h

theorem collisions_parcial_le : (collisions (parcial pl m arquivo n) intent).length ≤
    (collisions arquivo intent).length :=
  length_filter_mapIdx_le fun _ _ => colide_parcial

/-- The loop counts the collisions over the objects it already changed; the count tells the
same as on the file. -/
theorem collisions_parcial :
    1 < (collisions (parcial pl m arquivo n) intent).length ↔
      1 < (collisions arquivo intent).length := by
  constructor
  · exact fun hcolide => Nat.lt_of_lt_of_le hcolide collisions_parcial_le
  · intro hcolide
    -- who collides is skipped, so nothing of the collision has changed
    refine Nat.lt_of_lt_of_le hcolide (Nat.le_of_eq (congrArg List.length ?_))
    refine (filter_mapIdx_eq fun j i hj => ⟨fun hi => ?_, colide_parcial⟩).symm
    have hpulada : processa arquivo j = none := by
      refine Option.eq_none_iff_forall_ne_some.mpr fun i' hi' => ?_
      obtain ⟨hj', -, hpoucas⟩ := processa_eq_some.mp hi'
      cases hj.symm.trans hj'
      rw [collisions_congr hi] at hpoucas
      omega
    rw [desfecho_of_none hpulada]
    split_ifs
    · rfl
    · rfl

/-- The call on a scanned payment leaves what the outcome says. -/
theorem markPaidAndGrant_eq {hit : Hit} (h : processa arquivo k = some intent)
    (hscan : m.scanPayment k intent = .ok (some hit)) :
    markPaidAndGrant pl m k intent hit =
      ((desfecho pl m arquivo k).objeto pl intent, (desfecho pl m arquivo k).concede) := by
  unfold markPaidAndGrant desfecho
  rw [h]
  dsimp only
  rw [hscan]
  dsimp only
  cases m.submitGrant k (markPaid pl intent hit) with
  | error e => rfl
  | ok envio => rfl

theorem visita_parcial {dirty : Bool} (hn : n < arquivo.length) :
    Tick.visita pl m ⟨parcial pl m arquivo n, dirty⟩ n =
      ⟨parcial pl m arquivo (n + 1), dirty || (desfecho pl m arquivo n).concede⟩ := by
  obtain ⟨intent, hintent⟩ : ∃ i, arquivo[n]? = some i := ⟨_, List.getElem?_eq_getElem hn⟩
  have hobjeto : (parcial pl m arquivo n)[n]? = some intent := by
    rw [parcial_getElem?, hintent, Option.map_some, if_neg (Nat.lt_irrefl n)]
  have hpula : desfecho pl m arquivo n = .intocado →
      (⟨parcial pl m arquivo n, dirty⟩ : Tick) =
        ⟨parcial pl m arquivo (n + 1), dirty || (desfecho pl m arquivo n).concede⟩ := by
    intro hintocado
    rw [parcial_succ hintocado, hintocado]
    exact congrArg (Tick.mk _) (Bool.or_false dirty).symm
  unfold Tick.visita
  rw [hobjeto]
  dsimp only
  split_ifs with hstatus hcolide
  · refine hpula (desfecho_of_none (Option.eq_none_iff_forall_ne_some.mpr fun i hi => ?_))
    obtain ⟨hi, hpendente, -⟩ := processa_eq_some.mp hi
    cases hintent.symm.trans hi
    exact hstatus hpendente
  · refine hpula (desfecho_of_none (Option.eq_none_iff_forall_ne_some.mpr fun i hi => ?_))
    obtain ⟨hi, -, hpoucas⟩ := processa_eq_some.mp hi
    cases hintent.symm.trans hi
    exact absurd (collisions_parcial.mp hcolide) (Nat.not_lt.mpr hpoucas)
  · have hprocessa : processa arquivo n = some intent := processa_eq_some.mpr
      ⟨hintent, not_not.mp hstatus, Nat.le_of_not_lt fun h => hcolide (collisions_parcial.mpr h)⟩
    cases hscan : m.scanPayment n intent with
    | error e =>
      refine hpula ?_
      unfold desfecho
      rw [hprocessa]
      dsimp only
      rw [hscan]
    | ok achado =>
      cases achado with
      | none =>
        refine hpula ?_
        unfold desfecho
        rw [hprocessa]
        dsimp only
        rw [hscan]
      | some hit =>
        dsimp only
        rw [markPaidAndGrant_eq hprocessa hscan, parcial_set hintent]

theorem foldl_visita (hn : n ≤ arquivo.length) :
    (List.range n).foldl (Tick.visita pl m) ⟨arquivo, false⟩ =
      ⟨parcial pl m arquivo n, (List.range n).any fun k => (desfecho pl m arquivo k).concede⟩ := by
  induction n with
  | zero =>
    refine congrArg₂ Tick.mk (List.ext_getElem? fun k => ?_) rfl
    rw [parcial_getElem?]
    simp
  | succ n ih =>
    rw [List.range_succ, List.foldl_append, ih (Nat.le_of_succ_le hn), List.foldl_cons,
      List.foldl_nil, visita_parcial hn, List.any_append, List.any_cons, List.any_nil,
      Bool.or_false]

/-- Some grant of the tick goes through. -/
def Concede (pl : Plataforma) (m : Mundo) (arquivo : List Intent) : Prop :=
  ∃ k, (desfecho pl m arquivo k).concede = true

theorem lt_of_desfecho (h : desfecho pl m arquivo k ≠ .intocado) : k < arquivo.length := by
  obtain ⟨i, hi⟩ := exists_of_desfecho h
  exact (List.getElem?_eq_some_iff.mp (processa_eq_some.mp hi).1).1

theorem any_concede : ((List.range arquivo.length).any fun k =>
    (desfecho pl m arquivo k).concede) = true ↔ Concede pl m arquivo := by
  rw [List.any_eq_true]
  constructor
  · rintro ⟨k, -, hk⟩
    exact ⟨k, hk⟩
  · rintro ⟨k, hk⟩
    have hvisitada : desfecho pl m arquivo k ≠ .intocado := by
      intro h
      rw [h] at hk
      cases hk
    exact ⟨k, List.mem_range.mpr (lt_of_desfecho hvisitada), hk⟩

/-- The file is saved, with every object as the tick left it, if some grant goes through. -/
theorem tick_of_concede (h : Concede pl m arquivo) : (tick pl m arquivo)[k]? =
    arquivo[k]?.map fun i => (desfecho pl m arquivo k).objeto pl i := by
  unfold tick
  dsimp only
  rw [foldl_visita (Nat.le_refl _), if_pos (any_concede.mpr h), parcial_getElem?]
  cases hk : arquivo[k]? with
  | none => rfl
  | some i =>
    rw [Option.map_some, if_pos (List.getElem?_eq_some_iff.mp hk).1, Option.map_some]

theorem tick_of_nenhuma (h : ¬ Concede pl m arquivo) : tick pl m arquivo = arquivo := by
  unfold tick
  dsimp only
  rw [foldl_visita (Nat.le_refl _), if_neg fun hany => h (any_concede.mp hany)]

/-- A pending intent of the saved file was so before, and the tick did not get to it. -/
theorem pendente_of_tick (h : (tick pl m arquivo)[k]? = some intent)
    (hpendente : intent.status = "pending") : arquivo[k]? = some intent ∧
      ∀ hit envio, desfecho pl m arquivo k ≠ .concedida hit envio := by
  by_cases hconcede : Concede pl m arquivo
  · rw [tick_of_concede hconcede] at h
    obtain ⟨i, hi, rfl⟩ := Option.map_eq_some_iff.mp h
    refine ⟨?_, fun hit envio hd => ?_⟩
    · rcases objeto_cases pl (desfecho pl m arquivo k) i with hmesmo | hstatus
      · rw [hmesmo]
        exact hi
      · exact absurd hpendente hstatus
    · rw [hd] at hpendente
      exact absurd hpendente (show "granted" ≠ "pending" by decide)
  · rw [tick_of_nenhuma hconcede] at h
    refine ⟨h, fun hit envio hd => hconcede ⟨k, ?_⟩⟩
    rw [hd]
    rfl

theorem collisions_tick :
    (collisions (tick pl m arquivo) intent).length ≤ (collisions arquivo intent).length := by
  by_cases hconcede : Concede pl m arquivo
  · unfold tick
    dsimp only
    rw [foldl_visita (Nat.le_refl _), if_pos (any_concede.mpr hconcede)]
    exact collisions_parcial_le
  · refine Nat.le_of_eq ?_
    rw [tick_of_nenhuma hconcede]

end

/-! ## Runs of ticks -/

section

variable (pl : Plataforma)

def apos (ms : List Mundo) (arquivo : List Intent) : List Intent :=
  ms.foldl (fun arquivo m => tick pl m arquivo) arquivo

/-- The grant of the intent at a position was submitted by some tick of the run. -/
def Submetida : List Mundo → List Intent → ℕ → Prop
  | [], _, _ => False
  | m :: ms, arquivo, k =>
    (∃ hit hash, desfecho pl m arquivo k = .concedida hit (.enviado hash)) ∨
      Submetida ms (tick pl m arquivo) k

/-- The grant of the intent at a position failed in some tick of the run. -/
def Falhou : List Mundo → List Intent → ℕ → Prop
  | [], _, _ => False
  | m :: ms, arquivo, k =>
    (∃ hit, desfecho pl m arquivo k = .falhou hit) ∨ Falhou ms (tick pl m arquivo) k

/-- What is pending and was not submitted is stored as it was, and what failed is processed
again by a later tick that sees the payment. -/
structure Retentavel (ms : List Mundo) (arquivo : List Intent) : Prop where
  guardada : ∀ k i, arquivo[k]? = some i → i.status = "pending" →
    ¬ Submetida pl ms arquivo k → (apos pl ms arquivo)[k]? = some i
  repetida : ∀ k, Falhou pl ms arquivo k → ¬ Submetida pl ms arquivo k →
    ∃ i, processa (apos pl ms arquivo) k = some i

/-- No grant of the tick fails while another goes through, and none is a dry run. -/
structure Segura (m : Mundo) (arquivo : List Intent) : Prop where
  falha : ∀ k hit, desfecho pl m arquivo k = .falhou hit → ¬ Concede pl m arquivo
  seca : ∀ k hit, desfecho pl m arquivo k ≠ .concedida hit .dryRun

def Seguras : List Mundo → List Intent → Prop
  | [], _ => True
  | m :: ms, arquivo => Segura pl m arquivo ∧ Seguras ms (tick pl m arquivo)

variable {pl} {m : Mundo} {ms : List Mundo} {arquivo : List Intent} {intent : Intent} {k : ℕ}

theorem Segura.guarda (h : Segura pl m arquivo) (hk : arquivo[k]? = some intent)
    (hnao : ¬ ∃ hit hash, desfecho pl m arquivo k = .concedida hit (.enviado hash)) :
    (tick pl m arquivo)[k]? = some intent := by
  by_cases hconcede : Concede pl m arquivo
  · rw [tick_of_concede hconcede, hk, Option.map_some]
    cases hd : desfecho pl m arquivo k with
    | intocado => rfl
    | falhou hit => exact absurd hconcede (h.falha k hit hd)
    | concedida hit envio =>
      cases envio with
      | enviado hash => exact absurd ⟨hit, hash, hd⟩ hnao
      | dryRun => exact absurd hd (h.seca k hit)
  · rw [tick_of_nenhuma hconcede, hk]

theorem collisions_apos :
    (collisions (apos pl ms arquivo) intent).length ≤ (collisions arquivo intent).length := by
  induction ms generalizing arquivo with
  | nil => exact Nat.le_refl _
  | cons m ms ih => exact Nat.le_trans ih collisions_tick

theorem pendente_of_falhou (h : Falhou pl ms arquivo k) :
    ∃ i, arquivo[k]? = some i ∧ i.status = "pending" := by
  induction ms generalizing arquivo with
  | nil => exact absurd h id
  | cons m ms ih =>
    rcases h with ⟨hit, hd⟩ | h
    · have hvisitada : desfecho pl m arquivo k ≠ .intocado := by
        rw [hd]
        nofun
      obtain ⟨i, hi⟩ := exists_of_desfecho hvisitada
      exact ⟨i, (processa_eq_some.mp hi).1, (processa_eq_some.mp hi).2.1⟩
    · obtain ⟨i, hi, hpendente⟩ := ih h
      exact ⟨i, (pendente_of_tick hi hpendente).1, hpendente⟩

/-- A run that starts with a safe tick and goes on well goes well. -/
theorem Retentavel.cons (h : Segura pl m arquivo) (hms : Retentavel pl ms (tick pl m arquivo)) :
    Retentavel pl (m :: ms) arquivo := by
  have hguardada : ∀ k i, arquivo[k]? = some i → i.status = "pending" →
      ¬ Submetida pl (m :: ms) arquivo k → (apos pl (m :: ms) arquivo)[k]? = some i := by
    intro k i hk hpendente hnao
    obtain ⟨hagora, hdepois⟩ := not_or.mp hnao
    exact hms.guardada k i (h.guarda hk hagora) hpendente hdepois
  refine ⟨hguardada, fun k hfalhou hnao => ?_⟩
  rcases hfalhou with ⟨hit, hd⟩ | hfalhou
  · have hvisitada : desfecho pl m arquivo k ≠ .intocado := by
      rw [hd]
      nofun
    obtain ⟨i, hi⟩ := exists_of_desfecho hvisitada
    obtain ⟨hk, hpendente, hpoucas⟩ := processa_eq_some.mp hi
    exact ⟨i, processa_eq_some.mpr ⟨hguardada k i hk hpendente hnao, hpendente,
      Nat.le_trans collisions_apos hpoucas⟩⟩
  · exact hms.repetida k hfalhou fun hdepois => hnao (.inr hdepois)

/-- What a run keeps, it keeps from the second tick on. -/
theorem Retentavel.tail (h : Retentavel pl (m :: ms) arquivo) :
    Retentavel pl ms (tick pl m arquivo) := by
  have hnao : ∀ {k i}, (tick pl m arquivo)[k]? = some i → i.status = "pending" →
      ¬ Submetida pl ms (tick pl m arquivo) k → ¬ Submetida pl (m :: ms) arquivo k := by
    intro k i hk hpendente hdepois hsubmetida
    rcases hsubmetida with ⟨hit, hash, hd⟩ | hsubmetida
    · exact (pendente_of_tick hk hpendente).2 hit _ hd
    · exact hdepois hsubmetida
  refine ⟨fun k i hk hpendente hdepois => ?_, fun k hfalhou hdepois => ?_⟩
  · exact h.guardada k i (pendente_of_tick hk hpendente).1 hpendente (hnao hk hpendente hdepois)
  · obtain ⟨i, hk, hpendente⟩ := pendente_of_falhou hfalhou
    exact h.repetida k (.inr hfalhou) (hnao hk hpendente hdepois)

theorem segura_of_retentavel (h : Retentavel pl [m] arquivo) : Segura pl m arquivo := by
  -- an object that was written is not the one that was pending
  have hescrita : ∀ k, Concede pl m arquivo → desfecho pl m arquivo k ≠ .intocado →
      ∃ hit hash, desfecho pl m arquivo k = .concedida hit (.enviado hash) := by
    intro k hconcede hvisitada
    obtain ⟨i, hi⟩ := exists_of_desfecho hvisitada
    obtain ⟨hk, hpendente, -⟩ := processa_eq_some.mp hi
    by_contra hnao
    have hmesmo := h.guardada k i hk hpendente fun hs => hnao (hs.resolve_right id)
    change (tick pl m arquivo)[k]? = some i at hmesmo
    rw [tick_of_concede hconcede, hk, Option.map_some] at hmesmo
    have hstatus := congrArg Intent.status (Option.some.inj hmesmo)
    rw [hpendente] at hstatus
    cases hd : desfecho pl m arquivo k with
    | intocado => exact hvisitada hd
    | falhou hit =>
      rw [hd] at hstatus
      exact absurd hstatus (show "paid" ≠ "pending" by decide)
    | concedida hit envio =>
      rw [hd] at hstatus
      exact absurd hstatus (show "granted" ≠ "pending" by decide)
  refine ⟨fun k hit hd hconcede => ?_, fun k hit hd => ?_⟩
  · obtain ⟨_, _, hd'⟩ := hescrita k hconcede (by rw [hd]; nofun)
    rw [hd] at hd'
    cases hd'
  · obtain ⟨_, _, hd'⟩ := hescrita k ⟨k, by rw [hd]; rfl⟩ (by rw [hd]; nofun)
    rw [hd] at hd'
    cases hd'

/-- A run of ticks keeps every failed grant retryable, at each of its states, if and only if
every tick is safe on the file it loads. -/
theorem concessao_retentavel_iff :
    (∀ ms', ms' <+: ms → Retentavel pl ms' arquivo) ↔ Seguras pl ms arquivo := by
  induction ms generalizing arquivo with
  | nil =>
    refine ⟨fun _ => trivial, fun _ ms' hms' => ?_⟩
    rw [List.prefix_nil.mp hms']
    exact ⟨fun _ _ hk _ _ => hk, fun _ h => absurd h id⟩
  | cons m ms ih =>
    constructor
    · intro h
      refine ⟨segura_of_retentavel (h [m] ⟨ms, rfl⟩), ih.mp fun ms' hms' => ?_⟩
      exact (h (m :: ms') (List.cons_prefix_cons.mpr ⟨rfl, hms'⟩)).tail
    · rintro ⟨hm, hms⟩ ms' hms'
      rcases List.prefix_cons_iff.mp hms' with rfl | ⟨t, rfl, ht⟩
      · exact ⟨fun _ _ hk _ _ => hk, fun _ h => absurd h id⟩
      · exact (ih.mpr hms t ht).cons hm

end

/-! ## A grant that fails beside one that succeeds -/

def intentDeTeste (id payAmount : String) : Intent :=
  { id, status := "pending", beneficiary0x := "0x00", rail := "usdt-eth", payAmount,
    e7Amount := "1", chain := "ethereum", paymentTx := none, paymentId := none, grantTx := none }

/-- The first grant throws, the second is submitted. -/
def mundoDaFalha : Mundo where
  scanPayment _ _ := .ok (some ⟨"0xaa", 0⟩)
  submitGrant k _ := if k = 0 then .error "nonce too low" else .ok (.enviado "0xbb")

def plataformaDeTeste : Plataforma := ⟨id, id⟩

/-- The failed intent is saved as paid, which no tick processes. -/
theorem concessao_perdida : ¬ ∀ (pl : Plataforma) (ms : List Mundo) (arquivo : List Intent),
    Retentavel pl ms arquivo := by
  intro h
  have hguardada := (h plataformaDeTeste [mundoDaFalha]
    [intentDeTeste "a" "100000001", intentDeTeste "b" "100000002"]).guardada 0 _ rfl rfl
  have hstatus : ((apos plataformaDeTeste [mundoDaFalha]
      [intentDeTeste "a" "100000001", intentDeTeste "b" "100000002"])[0]?.map Intent.status) =
      some "paid" := by decide +kernel
  rw [hguardada fun hs => ?_] at hstatus
  · exact absurd (Option.some.inj hstatus) (show "pending" ≠ "paid" by decide)
  · rcases hs with ⟨hit, hash, hd⟩ | hs
    · have hfalhou : desfecho plataformaDeTeste mundoDaFalha
          [intentDeTeste "a" "100000001", intentDeTeste "b" "100000002"] 0 =
          .falhou ⟨"0xaa", 0⟩ := by rfl
      rw [hfalhou] at hd
      cases hd
    · exact hs

end Eav7.SaleRelayer
