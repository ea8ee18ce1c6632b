import Eav7.Base.Tentativas
import Eav7.Ideal
import Eav7.Octetos

/-!
# The mempool

The pending transactions of a node, in their order of arrival, and the selection of a block's
transactions, simulated on one copy of the state.
-/

namespace Eav7

open Base

def mempoolTtlMs : ℤ := 6 * 60 * 60 * 1000

def maxMempool : ℕ := 5000

/-- The entries with the mirror of their ids. An entry is listed once, under the id that its
transaction carries. -/
structure Mempool where
  entradas : List (String × Tx)
  ids : OrdMap String Unit
  espelho : ∀ id, ids.contains id = true ↔ id ∈ entradas.map Prod.fst
  distintas : (entradas.map Prod.fst).Nodup
  conferidas : ∀ e ∈ entradas, e.2.id = some e.1

namespace Mempool

def new : Mempool where
  entradas := []
  ids := ∅
  espelho _ := iff_of_false Bool.false_ne_true List.not_mem_nil
  distintas := List.nodup_nil
  conferidas _ h := absurd h List.not_mem_nil

variable (m : Mempool)

def len : ℕ := m.entradas.length

def isFull : Bool := maxMempool ≤ m.entradas.length

def has (id : String) : Bool := m.ids.contains id

def all : List Tx := m.entradas.map Prod.snd

def get (id : String) : Option Tx := (m.entradas.find? fun e => e.1 == id).map Prod.snd

/-- Puts an entry last, under the id of its transaction. -/
def comEntrada (id : String) (tx : Tx) (hid : tx.id = some id) (hnova : ¬ m.ids.contains id) :
    Mempool where
  entradas := m.entradas ++ [(id, tx)]
  ids := m.ids.insert id ()
  espelho j := by
    rw [List.map_append, List.mem_append, ← m.espelho, OrdMap.contains, OrdMap.get?_insert]
    split_ifs with h
    · simp [h]
    · simp [h, OrdMap.contains]
  distintas := by
    rw [List.map_append]
    refine List.nodup_append'.mpr ⟨m.distintas, List.nodup_singleton _, ?_⟩
    exact List.disjoint_singleton.mpr fun h => hnova ((m.espelho id).mpr h)
  conferidas e he := by
    rcases List.mem_append.mp he with he | he
    · exact m.conferidas e he
    · cases List.mem_singleton.mp he
      exact hid

/-- Adds a transaction whose id is the one of its payload; `false` is a duplicate. -/
def add (cr : Cripto) (tx : Tx) : Except String (Bool × Mempool) :=
  let id := cr.txDedupId tx
  if hid : tx.id = some id then
    if hnova : m.ids.contains id then .ok (false, m)
    else .ok (true, m.comEntrada id tx hid hnova)
  else .error "id da transação não confere com o payload"

/-- Drops the entries of some ids. -/
def semIds (alvo : List String) : Mempool where
  entradas := m.entradas.filter fun e => !alvo.contains e.1
  ids := m.ids.filter fun id _ => !alvo.contains id
  espelho id := by
    have h := m.espelho id
    have hchaves : (m.entradas.filter fun e => !alvo.contains e.1).map Prod.fst =
        (m.entradas.map Prod.fst).filter fun id => !alvo.contains id := by
      rw [List.filter_map]
      rfl
    unfold OrdMap.contains at h ⊢
    rw [OrdMap.get?_filter, hchaves, List.mem_filter, ← h]
    cases m.ids.get? id <;> simp [Option.filter]
  distintas := m.distintas.sublist (List.filter_sublist.map Prod.fst)
  conferidas e he := m.conferidas e (List.mem_of_mem_filter he)

def remove (ids : List String) : Mempool := if ids = [] then m else m.semIds ids

/-- The nonce that the state has for an account. -/
def nonceNoEstado (s : State) (de : String) : ℤ := (s.account de).nonce

/-- The nonce is spent, or the transaction outlived its time. Ids are listed once, so that
dropping by id drops exactly the entries that meet the rule. -/
def prune (s : State) (nowMs : ℤ) : Mempool :=
  let limite := nowMs - mempoolTtlMs
  m.semIds <| (m.entradas.filter fun e =>
    e.2.nonce ≤ nonceNoEstado s e.2.de || e.2.timestamp < limite).map Prod.fst

/-! ## Selection -/

/-- By nonce, then by timestamp. -/
def antes (a b : String × Tx) : Prop :=
  a.2.nonce < b.2.nonce ∨ (a.2.nonce = b.2.nonce ∧ a.2.timestamp ≤ b.2.timestamp)

instance decidableAntes : DecidableRel antes := fun a b => by unfold antes; infer_instance

/-- The entries in the order they are attempted; a tie keeps the order of arrival. -/
def pendentes : List (String × Tx) := m.entradas.insertionSort antes

section

variable (amb : Ambiente)

def aplica (height blockTs : ℕ) (tx : Tx) : Op AppliedTx := applyTransaction amb tx height blockTs

/-- The selection on a copy of the state, swept until it stops or fills the block. -/
def simulacao (s : State) (height blockTs max : ℕ) : Selecao State String Tx :=
  Selecao.escolher (aplica amb height blockTs) max m.pendentes s

/-- What was not chosen and is not ahead of the next nonce. -/
def obsoletas (x : Selecao State String Tx) : List String :=
  (m.pendentes.filter fun e =>
    !x.escolhidos.contains e.1 && e.2.nonce ≤ nonceNoEstado x.sim e.2.de + 1).map Prod.fst

def selectExecutable (s : State) (height blockTs max : ℕ) : List Tx × Mempool :=
  let x := m.simulacao amb s height blockTs max
  (x.selecionadas, m.remove (m.obsoletas x))

/-- Every attempt that the selection makes and that fails leaves the simulated state as it
found it. -/
def SemSobras (s : State) (height blockTs max : ℕ) : Prop :=
  Selecao.NasTentativas (aplica amb height blockTs) max (SemRastro (aplica amb height blockTs))
    m.pendentes s

variable {amb} {m} {s : State} {height blockTs max : ℕ}

theorem fst_selectExecutable : (m.selectExecutable amb s height blockTs max).1 =
    (m.simulacao amb s height blockTs max).selecionadas := rfl

theorem mem_pendentes {e : String × Tx} : e ∈ m.pendentes ↔ e ∈ m.entradas :=
  (List.perm_insertionSort antes m.entradas).mem_iff

theorem length_pendentes : m.pendentes.length = m.len :=
  (List.perm_insertionSort antes m.entradas).length_eq

/-- The transactions selected carry the ids they were chosen under. -/
theorem ids_selecionadas {x : Selecao State String Tx} (h : x.Coerente max m.pendentes) :
    x.selecionadas.map (·.id) = x.escolhidos.map some := by
  have hpar : ∀ e ∈ x.escolhidos.zip x.selecionadas, e.2.id = some e.1 :=
    fun e he => m.conferidas e (mem_pendentes.mp (h.pares he))
  calc x.selecionadas.map (·.id)
      = ((x.escolhidos.zip x.selecionadas).map Prod.snd).map (·.id) := by
        rw [List.map_snd_zip h.mesmos.ge]
    _ = ((x.escolhidos.zip x.selecionadas).map Prod.fst).map some := by
        rw [List.map_map, List.map_map]
        exact List.map_congr_left hpar
    _ = x.escolhidos.map some := by rw [List.map_fst_zip h.mesmos.le]

theorem has_remove (ids : List String) (id : String) :
    (m.remove ids).has id = (m.has id && !ids.contains id) := by
  unfold remove
  split_ifs with hvazia
  · simp [hvazia]
  · unfold has semIds OrdMap.contains
    rw [OrdMap.get?_filter]
    cases m.ids.get? id with
    | none => rfl
    | some u => by_cases hid : id ∈ ids <;> simp [Option.filter, hid]

/-- An entry is known by its id. -/
theorem tx_unica {id : String} {tx tx' : Tx} (h : (id, tx) ∈ m.entradas) (h' : (id, tx') ∈ m.entradas) :
    tx = tx' :=
  congrArg Prod.snd (List.inj_on_of_nodup_map m.distintas h h' rfl)

/-- A transaction whose id was chosen is among the selected. -/
theorem selecionada_de_escolhida {x : Selecao State String Tx} (h : x.Coerente max m.pendentes)
    {e : String × Tx} (he : e ∈ m.entradas) (hid : e.1 ∈ x.escolhidos) : e.2 ∈ x.selecionadas := by
  rw [← List.map_fst_zip h.mesmos.le] at hid
  obtain ⟨⟨id, tx⟩, hpar, rfl⟩ := List.mem_map.mp hid
  rw [tx_unica he (mem_pendentes.mp (h.pares hpar))]
  exact (List.of_mem_zip hpar).2

end

/-- The mempool that two transactions make, in their order of arrival. -/
theorem duas_entradas {cr : Cripto} {tx₁ tx₂ : Tx} {id₁ id₂ : String}
    (hpayload₁ : cr.txDedupId tx₁ = id₁) (hpayload₂ : cr.txDedupId tx₂ = id₂)
    (hid₁ : tx₁.id = some id₁) (hid₂ : tx₂.id = some id₂) (hids : id₂ ≠ id₁) :
    ∃ m₁ m, new.add cr tx₁ = .ok (true, m₁) ∧ m₁.add cr tx₂ = .ok (true, m) ∧
      m.entradas = [(id₁, tx₁), (id₂, tx₂)] := by
  subst hpayload₁ hpayload₂
  let m₁ := new.comEntrada _ tx₁ hid₁ Bool.false_ne_true
  have hnova : ¬ m₁.ids.contains (cr.txDedupId tx₂) = true := fun h =>
    hids (List.mem_singleton.mp ((m₁.espelho _).mp h))
  refine ⟨m₁, m₁.comEntrada _ tx₂ hid₂ hnova, ?_, ?_, rfl⟩
  · unfold add
    rw [dif_pos hid₁]
    rfl
  · unfold add
    rw [dif_pos hid₂, dif_neg hnova]

end Mempool

/-! ## What a block is offered -/

open Mempool

/-- A transaction refused by the guards before the dispatch, a nonce ahead among them, leaves
nothing behind. -/
theorem semRastro_de_recusada {amb : Ambiente} {s : State} {height blockTs : ℕ} {tx : Tx}
    (h : (conferirEntrada s tx).toOption = none) : SemRastro (aplica amb height blockTs) tx s := by
  intro _
  cases hentrada : conferirEntrada s tx with
  | ok recebido => rw [hentrada] at h; cases h
  | error e =>
    have hfalha : applyTransaction amb tx height blockTs s = .error e s := by
      change (Base.lift (conferirEntrada s tx) >>= _) s = _
      rw [hentrada]
      rfl
    unfold fim aplica
    rw [hfalha]

def transferencia (nonce timestamp : ℤ) (de para id : String) : Tx :=
  { txType := "TRANSFER", de := de, para := some para, amount := "1", nonce := nonce
    timestamp := timestamp, id := some id }

def donaDaChave : String := "E720C635D10270FDB360E84BF63E51B704"

def chamadora : String := "E7B5D577DC9CE59725E29886632E69F5EA"

def estadoComSaldo : State :=
  { accounts := OrdMap.ofList [(donaDaChave, { balance := 10 }), (chamadora, { balance := 10 })] }

def idDaIda : String := "3afe2ba1375b3557b946eecc40daf3bb8dac9e061841768ec56f5868bce96878"

def idDaAdiantada : String := "ef542053900d69a075edbef20cd62ed298fb67285e7c5cb90c3352f0a60d2ca7"

/-- A transfer and another one of the same sender, two nonces ahead. -/
def filaComLacuna : Mempool :=
  (new.comEntrada idDaAdiantada (transferencia 3 1 donaDaChave chamadora idDaAdiantada) rfl
    Bool.false_ne_true).comEntrada idDaIda (transferencia 1 1 donaDaChave chamadora idDaIda) rfl
    (by decide)

theorem aplica_direta : aplica ambienteIdeal = fun height blockTs tx =>
    applyTransaction ambienteDireto tx height blockTs := by
  rw [ambienteIdeal_eq]
  rfl

/-- Every attempt of the selection goes through or is refused at the door; the selection takes
the transfer of the next nonce only. -/
instance tentativas_com_lacuna : Fact (Selecao.NasTentativas (aplica ambienteIdeal 1 1)
      Config.maxTxsPerBlock (fun tx s => conclui (aplica ambienteIdeal 1 1 tx) s = true ∨
        (conferirEntrada s tx).toOption.isNone = true) filaComLacuna.pendentes estadoComSaldo ∧
    (filaComLacuna.selectExecutable ambienteIdeal estadoComSaldo 1 1
      Config.maxTxsPerBlock).1.map (fun tx => (tx.id, tx.nonce)) = [(some idDaIda, 1)]) where
  out := by
    unfold selectExecutable simulacao
    rw [aplica_direta]
    unfold applyTransaction aplicarNativa apurarTaxa EavmTx.apurarGb
    rw [consumoGb_eq]
    decide +kernel

theorem lacuna_sem_sobras :
    filaComLacuna.SemSobras ambienteIdeal estadoComSaldo 1 1 Config.maxTxsPerBlock := by
  refine tentativas_com_lacuna.out.1.mono fun tx s htentativa => ?_
  rcases htentativa with hok | hrecusada
  · exact .of_conclui hok
  · exact semRastro_de_recusada (Option.isNone_iff_eq_none.mp hrecusada)

def contaConjunta : String := "E7C3EED5B2E212D84FD8090695C44B0614"

def enderecoDoPagador : String := "0xc0ffee254729296a45a3885639ac7e10f9d54979"

def idDaProposta : String := "d985b73fab479f5827760459acf18c155414f9dd5a6fc4c76e6869d67af940af"

def idDaChamada : String := "f87008d4eb2632f56a9b26059a4a2a9ad825f0d31010f40374a9b4233794f539"

/-- A joint account sends a token of a collection that does not exist. -/
def propostaSemColecao : Tx :=
  { txType := "MULTISIG_PROPOSE", de := donaDaChave, nonce := 1, timestamp := 1, fee := "100000"
    data := some (.map [("account", .str contaConjunta),
      ("op", .map [("collection", .str "c"), ("to", .str donaDaChave), ("tokenId", .str "1"),
        ("type", .str "NFT_TRANSFER")])])
    id := some idDaProposta }

def chamadaAoPagador : Tx :=
  { txType := "EAVM_CALL", de := chamadora, nonce := 1, timestamp := 2, fee := "1000000"
    data := some (.map [("to", .str enderecoDoPagador)]), id := some idDaChamada }

/-- The holder of the key has just the fee of the proposal. The contract pays its caller, who
has nothing, once the holder of the key has nothing. -/
def estadoComPagador : State :=
  { accounts := OrdMap.ofList [(donaDaChave, { balance := 5120, gbUsed := 10 ^ 9, gbBlock := 1 }),
      (chamadora, { staked := 1000 * Config.unit, gbUsed := 10 ^ 12, gbBlock := 1 }),
      ("E787B059BDFF5E4249A0A462907DE6E2CA", { balance := 10 ^ 9 })]
    contracts := OrdMap.ofList [(enderecoDoPagador, { contratoVazio with
      code := "0x73e700000020c635d10270fdb360e84bf63e51b7043160285760006000" ++
        "60006000" ++ "61ffff335af1005b00" })]
    permissions := OrdMap.ofList [(contaConjunta,
      .v1 { threshold := 1, keys := OrdMap.ofList [(donaDaChave, 1)] })] }

/-- The proposal fails, and on what it left the call is paid. -/
instance proposta_falha : Fact
    (conclui (aplica ambienteIdeal 1 1 propostaSemColecao) estadoComPagador = false ∧
    conclui (aplica ambienteIdeal 1 1 chamadaAoPagador)
      (fim (aplica ambienteIdeal 1 1 propostaSemColecao) estadoComPagador) = true) where
  out := by
    rw [aplica_direta]
    unfold applyTransaction aplicarNativa aplicarEavm apurarTaxa EavmTx.aplicar EavmTx.aplicarVm
      EavmTx.cobrarVm EavmTx.apurarGb
    rw [consumoGb_eq]
    decide +kernel

/-- On the state itself the call is not paid. -/
instance chamada_sem_proposta : Fact
    (conclui (aplica ambienteIdeal 1 1 chamadaAoPagador) estadoComPagador = false) where
  out := by
    rw [aplica_direta]
    unfold applyTransaction aplicarNativa aplicarEavm apurarTaxa EavmTx.aplicar EavmTx.aplicarVm
      EavmTx.cobrarVm EavmTx.apurarGb
    rw [consumoGb_eq]
    decide +kernel

instance ids_da_proposta : Fact (criptoIdeal.txDedupId propostaSemColecao = idDaProposta ∧
    criptoIdeal.txDedupId chamadaAoPagador = idDaChamada) where
  out := by
    refine ⟨(txId_eq_idPorOctetos _ _).trans ?_, (txId_eq_idPorOctetos _ _).trans ?_⟩
    · decide +kernel
    · decide +kernel

def idDaVolta : String := "b83767fa828df861c01908c3b3a1aba1a221253d808d8012f23c21d8e3c0d6fd"

/-- The two transfers, as they wait. -/
def idaEVolta : List (String × Tx) :=
  [(idDaIda, transferencia 1 1 donaDaChave chamadora idDaIda),
    (idDaVolta, transferencia 1 1 chamadora donaDaChave idDaVolta)]

def selecaoDaIda : Selecao State String Tx :=
  Selecao.escolher (aplica ambienteIdeal 1 1) 1 idaEVolta estadoComSaldo

/-- The first transfer alone is chosen, and the second one is at its account's next nonce. -/
instance ida_escolhida : Fact (selecaoDaIda.escolhidos = [idDaIda] ∧
    selecaoDaIda.selecionadas.map (·.id) = [some idDaIda] ∧
    1 ≤ nonceNoEstado selecaoDaIda.sim chamadora + 1 ∧
    (emOrdem (aplica ambienteIdeal 1 1) selecaoDaIda.selecionadas estadoComSaldo).any
      (conclui (aplica ambienteIdeal 1 1
        (transferencia 1 1 chamadora donaDaChave idDaVolta))) = true) where
  out := by
    unfold selecaoDaIda
    rw [aplica_direta]
    unfold applyTransaction aplicarNativa apurarTaxa EavmTx.apurarGb
    rw [consumoGb_eq]
    decide +kernel

instance ids_da_ida : Fact (criptoIdeal.txDedupId
      (transferencia 1 1 donaDaChave chamadora idDaIda) = idDaIda ∧
    criptoIdeal.txDedupId (transferencia 1 1 chamadora donaDaChave idDaVolta) = idDaVolta) where
  out := by
    refine ⟨(txId_eq_idPorOctetos _ _).trans ?_, (txId_eq_idPorOctetos _ _).trans ?_⟩
    · decide +kernel
    · decide +kernel

end Eav7
