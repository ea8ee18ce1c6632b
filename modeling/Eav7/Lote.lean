import Eav7.Base.Fatias
import Eav7.Boot

/-!
# Blocks in batches

A batch is verified first, by threads or, when a block leaves its keys out, in order with the
keys seen so far. What passed is then applied without verifying again. The chain cannot tell
this from blocks that come one by one.
-/

namespace Eav7.Blockchain.Lote

open Base

section

variable (amb : Ambiente)

/-! ## Verifying -/

def erroDe : Falha Unit → Option String
  | .ok _ => none
  | .error e => some e

def precisaSeq (blocos : List Block) : Bool :=
  blocos.any fun b => b.publicKey.isNone || b.pqPublicKey.isNone

/-- The failures of the blocks in order, each with the keys of those that passed before it. -/
def falhasEmOrdem (keys : OrdMap String (String × String)) : List Block → List (Option String)
  | [] => []
  | b :: blocos =>
    let falha := erroDe (amb.cripto.verifyBlockIntegrityEx b (keys.get? b.producer))
    falha :: falhasEmOrdem (if falha.isNone then lembraChaves b keys else keys) blocos

def falhasEmParalelo (nucleos : ℕ) (agenda : ℕ → ℕ) (blocos : List Block) :
    List (Option String) :=
  let porThread := (blocos.length + nucleos - 1) / nucleos
  Fatias.executa (fun b => erroDe (amb.cripto.verifyBlockIntegrity b)) agenda
    (Fatias.fatias porThread (Fatias.tarefas blocos)) (List.replicate blocos.length none)

/-- The blocks before the first failure, and that failure. -/
def cortar (falhas : List (Option String)) (blocos : List Block) : List Block × Option String :=
  match falhas.findIdx? Option.isSome with
  | none => (blocos, none)
  | some i =>
    let erro := (falhas[i]?.join).getD ""
    let altura := blocos[i]?.elim 0 (·.height)
    (blocos.take i, some s!"bloco {altura}: {erro}")

def verificarLote (nucleos : ℕ) (agenda : ℕ → ℕ) (blocos : List Block)
    (chavesConhecidas : OrdMap String (String × String)) : List Block × Option String :=
  if precisaSeq blocos ∨ nucleos ≤ 1 ∨ blocos.length < 8 then
    cortar (falhasEmOrdem amb chavesConhecidas blocos) blocos
  else cortar (falhasEmParalelo amb nucleos agenda blocos) blocos

/-! ## Applying -/

/-- The checks of a block whose integrity was verified. -/
def conferirVerificado (c : Blockchain) (block : Block) (now : ℤ) : Falha Unit := do
  falharSe (c.hasGenesis = false) "cadeia sem bloco gênese"
  c.conferirCabeca block
  if c.loading then return ()
  c.conferirProdutor block now

def addBlockVerificado (block : Block) (now : ℤ) : Cadeia Unit := do
  let c ← get
  conferir (conferirVerificado c block now)
  let (recibos, sim) ← conferir (c.simularBloco amb block)
  gravarBloco amb block sim recibos

def aplicarVerificados (now : ℤ) : List Block → Cadeia Unit
  | [] => pure ()
  | block :: blocos => do
    addBlockVerificado amb block now
    aplicarVerificados now blocos

def aplicarLote (nucleos : ℕ) (agenda : ℕ → ℕ) (lote : List Block) (now : ℤ) : Cadeia Unit := do
  let c ← get
  let (verificados, erro) := verificarLote amb nucleos agenda lote c.producerKeys
  aplicarVerificados amb now verificados
  match erro with
  | some e => conferir (falhar e)
  | none => pure ()

end

/-! ## What the threads find -/

section

variable {amb : Ambiente} {keys : OrdMap String (String × String)} {b : Block} {blocos : List Block}

/-- The verification in order, with its first failure. -/
def prefixo (amb : Ambiente) (keys : OrdMap String (String × String)) :
    List Block → List Block × Option String
  | [] => ([], none)
  | b :: blocos =>
    match amb.cripto.verifyBlockIntegrityEx b (keys.get? b.producer) with
    | .error e => ([], some s!"bloco {b.height}: {e}")
    | .ok _ =>
      let resto := prefixo amb (lembraChaves b keys) blocos
      (b :: resto.1, resto.2)

theorem cortar_none {falhas : List (Option String)} : cortar (none :: falhas) (b :: blocos) =
    (b :: (cortar falhas blocos).1, (cortar falhas blocos).2) := by
  unfold cortar
  rw [List.findIdx?_cons, if_neg (by decide)]
  cases falhas.findIdx? Option.isSome with
  | none => rfl
  | some i => rfl

theorem cortar_some {falhas : List (Option String)} {e : String} :
    cortar (some e :: falhas) (b :: blocos) = ([], some s!"bloco {b.height}: {e}") := by
  unfold cortar
  rw [List.findIdx?_cons, if_pos (show (some e).isSome = true from rfl)]
  rfl

theorem cortar_emOrdem : cortar (falhasEmOrdem amb keys blocos) blocos =
    prefixo amb keys blocos := by
  induction blocos generalizing keys with
  | nil => rfl
  | cons b blocos ih =>
    unfold falhasEmOrdem prefixo
    dsimp only
    cases amb.cripto.verifyBlockIntegrityEx b (keys.get? b.producer) with
    | error e => exact cortar_some
    | ok u =>
      unfold erroDe
      rw [cortar_none, ← ih]
      rfl

/-- A block with its keys on the wire is verified with these, whatever keys are known. -/
theorem integridade_completa (amb : Ambiente) (hpk : b.publicKey.isSome) (hpq : b.pqPublicKey.isSome)
    (chaves : Option (String × String)) :
    amb.cripto.verifyBlockIntegrityEx b chaves = amb.cripto.verifyBlockIntegrity b := by
  obtain ⟨pk, hpk⟩ := Option.isSome_iff_exists.mp hpk
  obtain ⟨pq, hpq⟩ := Option.isSome_iff_exists.mp hpq
  have hchaves : ∀ conhecidas, Cripto.chavesDoBloco b conhecidas = .ok (pk, pq) := by
    intro conhecidas
    unfold Cripto.chavesDoBloco
    rw [hpk, hpq]
  unfold Cripto.verifyBlockIntegrity Cripto.verifyBlockIntegrityEx
  rw [hchaves, hchaves]

theorem emOrdem_completos (h : precisaSeq blocos = false) : falhasEmOrdem amb keys blocos =
    blocos.map fun b => erroDe (amb.cripto.verifyBlockIntegrity b) := by
  induction blocos generalizing keys with
  | nil => rfl
  | cons b blocos ih =>
    unfold precisaSeq at h
    rw [List.any_cons, Bool.or_eq_false_iff, Bool.or_eq_false_iff] at h
    obtain ⟨⟨hpk, hpq⟩, hresto⟩ := h
    have hcompleto := integridade_completa amb (by simpa using hpk) (by simpa using hpq)
      (keys.get? b.producer)
    unfold falhasEmOrdem
    dsimp only
    rw [hcompleto, ih hresto, List.map_cons]

/-- The threads find what the verification in order finds. -/
theorem verificarLote_eq (nucleos : ℕ) (agenda : ℕ → ℕ) :
    verificarLote amb nucleos agenda blocos keys = prefixo amb keys blocos := by
  unfold verificarLote
  split_ifs with hseq
  · exact cortar_emOrdem
  · obtain ⟨hcompletos, hvarios⟩ := not_or.mp hseq
    obtain ⟨hnucleos, hlongo⟩ := not_or.mp hvarios
    have hfatia : 0 < (blocos.length + nucleos - 1) / nucleos :=
      Nat.div_pos (by omega) (by omega)
    unfold falhasEmParalelo
    dsimp only
    rw [Fatias.executa_fatias hfatia List.length_replicate,
      ← emOrdem_completos (Bool.eq_false_iff.mpr hcompletos), cortar_emOrdem]

end

/-! ## A batch against its blocks one by one -/

/-- The same outcome, but for the text of an error. -/
def MesmoFim : EStateM.Result Interrupcao Blockchain Unit →
    EStateM.Result Interrupcao Blockchain Unit → Prop
  | .ok _ c, .ok _ c' => c = c'
  | .error (.erro _) c, .error (.erro _) c' => c = c'
  | .error (.aborta motivo) c, .error (.aborta motivo') c' => motivo = motivo' ∧ c = c'
  | _, _ => False

/-- How many blocks a call takes, one after another, before it fails. -/
def aplicados (m : Block → Cadeia Unit) : List Block → Blockchain → ℕ
  | [], _ => 0
  | b :: blocos, c =>
    match m b c with
    | .ok _ c' => aplicados m blocos c' + 1
    | .error _ _ => 0

section

variable {amb : Ambiente} {c : Blockchain} {b : Block} {blocos : List Block} {now : ℤ}

theorem MesmoFim.refl (r : EStateM.Result Interrupcao Blockchain Unit) : MesmoFim r r := by
  cases r with
  | ok u c => exact rfl
  | error e c =>
    cases e with
    | erro msg => exact rfl
    | aborta motivo => exact ⟨rfl, rfl⟩

theorem conferirBloco_eq (h : amb.cripto.verifyBlockIntegrityEx b (c.producerKeys.get? b.producer) =
    .ok ()) : c.conferirBloco amb b now = conferirVerificado c b now := by
  unfold conferirBloco conferirVerificado
  rw [h]
  rfl

/-- Once the integrity of a block is verified, both calls do the same. -/
theorem addBlock_verificado (now : ℤ) (h : amb.cripto.verifyBlockIntegrityEx b
    (c.producerKeys.get? b.producer) = .ok ()) :
    addBlock amb b now c = addBlockVerificado amb b now c := by
  unfold addBlock addBlockVerificado
  rw [get_bind_run, get_bind_run, conferirBloco_eq h]

/-- A block that is not whole is refused, and the chain stays as it was. -/
theorem addBlock_quebrado (now : ℤ) {e : String} (h : amb.cripto.verifyBlockIntegrityEx b
    (c.producerKeys.get? b.producer) = .error e) :
    ∃ msg, addBlock amb b now c = .error (.erro msg) c := by
  have hconf : ∃ msg, c.conferirBloco amb b now = .error msg := by
    unfold conferirBloco
    by_cases hgen : c.hasGenesis = false
    · exact ⟨_, by rw [falharSe, if_pos hgen]; rfl⟩
    · exact ⟨e, by rw [falharSe, if_neg hgen, h]; rfl⟩
  obtain ⟨msg, hconf⟩ := hconf
  have hrecusa : (conferir (c.conferirBloco amb b now) : Cadeia Unit) c = .error (.erro msg) c :=
    conferir_eq_error.mpr ⟨⟨msg, hconf, rfl⟩, rfl⟩
  refine ⟨msg, ?_⟩
  unfold addBlock
  rw [get_bind_run]
  exact bind_run_error hrecusa _

/-- The rest of a batch once its blocks are verified. -/
def concluir (amb : Ambiente) (now : ℤ) (r : List Block × Option String) : Cadeia Unit := do
  aplicarVerificados amb now r.1
  match r.2 with
  | some e => conferir (falhar e)
  | none => pure ()

theorem concluir_cons {verificados : List Block} {erro : Option String} :
    concluir amb now (b :: verificados, erro) =
      (addBlockVerificado amb b now >>= fun _ => concluir amb now (verificados, erro)) := by
  unfold concluir
  dsimp only
  rw [aplicarVerificados, bind_assoc]

/-- A batch verified with the keys of the chain goes as its blocks one by one. -/
theorem concluir_prefixo : MesmoFim (concluir amb now (prefixo amb c.producerKeys blocos) c)
      (addBlocks amb now blocos c) ∧
    aplicados (addBlockVerificado amb · now) (prefixo amb c.producerKeys blocos).1 c =
      aplicados (addBlock amb · now) blocos c := by
  induction blocos generalizing c with
  | nil => exact ⟨rfl, rfl⟩
  | cons b blocos ih =>
    unfold prefixo addBlocks
    cases hint : amb.cripto.verifyBlockIntegrityEx b (c.producerKeys.get? b.producer) with
    | error e =>
      obtain ⟨msg, hrecusa⟩ := addBlock_quebrado now hint
      dsimp only
      rw [bind_run_error hrecusa]
      refine ⟨rfl, ?_⟩
      unfold aplicados
      rw [hrecusa]
    | ok u =>
      have hmesmo := addBlock_verificado now hint
      dsimp only
      rw [concluir_cons]
      unfold aplicados
      rw [← hmesmo]
      cases hadd : addBlock amb b now c with
      | error e c' =>
        rw [bind_run_error hadd, bind_run_error (hmesmo ▸ hadd)]
        exact ⟨MesmoFim.refl _, rfl⟩
      | ok u c' =>
        -- what was accepted leaves in the chain the keys that the verification went on with
        obtain ⟨recibos, sim, -, hgrava⟩ := addBlock_ok hadd
        have hchaves := (gravarBloco_indices hgrava).2
        rw [bind_run_ok hadd, bind_run_ok (hmesmo ▸ hadd), ← hchaves]
        exact ⟨ih.1, congrArg (· + 1) ih.2⟩

/-- A batch leaves the chain that its blocks leave one by one up to the first failure, fails
exactly when they do, and applies as many, whatever the cores and the agenda of the threads. -/
theorem lote_um_a_um {nucleos : ℕ} {agenda : ℕ → ℕ} {lote : List Block} :
    MesmoFim (aplicarLote amb nucleos agenda lote now c) (addBlocks amb now lote c) ∧
    aplicados (addBlockVerificado amb · now)
        (verificarLote amb nucleos agenda lote c.producerKeys).1 c =
      aplicados (addBlock amb · now) lote c := by
  have hlote : aplicarLote amb nucleos agenda lote now c =
      concluir amb now (prefixo amb c.producerKeys lote) c := by
    unfold aplicarLote
    rw [get_bind_run, verificarLote_eq]
    rfl
  rw [hlote, verificarLote_eq]
  exact concluir_prefixo

end

end Eav7.Blockchain.Lote
