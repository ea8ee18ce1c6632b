import Eav7.Execucao
import Eav7.Octetos
import Eav7.RedeIdeal

/-!
# Transactions of idealised accounts

A transaction signed by an idealised key verifies, and its id weighs in the quota
what any other hash weighs. With them a run of accepted transactions can be written
down action by action.
-/

namespace Eav7

open Base

/-! ## Derived addresses -/

theorem hexMaiusculo_hexByte : ∀ n < 256,
    (hexByte true (UInt8.ofNat n)).all Cripto.hexMaiusculo = true := by decide +kernel

theorem all_hexMaiusculo (bs : Bytes) :
    (bs.flatMap (hexByte true)).all Cripto.hexMaiusculo = true := by
  rw [List.all_flatMap]
  refine List.all_eq_true.mpr fun b _ => ?_
  have hb := hexMaiusculo_hexByte b.toNat b.toNat_lt
  rwa [UInt8.ofNat_toNat] at hb

theorem length_hexByte (bs : Bytes) : (bs.flatMap (hexByte true)).length = 2 * bs.length := by
  induction bs with
  | nil => rfl
  | cons b bs ih =>
    rw [List.flatMap_cons, List.length_append, ih, List.length_cons]
    change 2 + 2 * bs.length = 2 * (bs.length + 1)
    omega

/-- An address is valid when it was derived from keys. -/
theorem Cripto.isValidAddress_deriveAddressFrom {cr : Cripto} (hd : cr.Digere) (data : Bytes) :
    cr.isValidAddress (cr.deriveAddressFrom data) = true := by
  let corpo := ((cr.sha3 data).take 14).flatMap (hexByte true)
  let soma := ((cr.sha3 (bytesDe s!"EAV7-ADDR:{String.ofList corpo}")).take 2).flatMap (hexByte true)
  have hlista : (cr.deriveAddressFrom data).toList = 'E' :: '7' :: (corpo ++ soma) := by
    have hprefixo : Config.addressPrefix.toList = ['E', '7'] := by decide
    unfold deriveAddressFrom addressChecksum hexEncodeUpper
    rw [String.toList_append, String.toList_append, hprefixo, String.toList_ofList,
      String.toList_ofList]
    rfl
  have hcorpo : corpo.length = 28 := by
    rw [length_hexByte, List.length_take, hd]
    rfl
  have hsoma : soma.length = 4 := by
    rw [length_hexByte, List.length_take, hd]
    rfl
  have hchecksum : String.ofList soma = cr.addressChecksum (String.ofList corpo) := rfl
  unfold isValidAddress
  rw [hlista]
  change (_ && _) = true
  rw [List.length_append, hcorpo, hsoma, List.all_append, all_hexMaiusculo, all_hexMaiusculo,
    List.drop_left' hcorpo, List.take_left' hcorpo, hchecksum]
  exact Bool.and_eq_true_iff.mpr ⟨rfl, beq_self_eq_true _⟩

theorem Produtor.Capaz.valido {cr : Cripto} {p : Produtor} (hp : p.Capaz cr) (hd : cr.Digere) :
    cr.isValidAddress p.endereco = true := by
  obtain ⟨chaves, -, hendereco⟩ := Option.map_eq_some_iff.mp hp.derivado
  rw [← hendereco]
  exact Cripto.isValidAddress_deriveAddressFrom hd _

/-! ## Signing -/

/-- The transaction signed by an idealised key. -/
def Tx.assinada (cr : Cripto) (chave endereco : String) (tx : Tx) : Tx :=
  let t := { tx with
    de := endereco, publicKey := some chave, pqPublicKey := some chave, signature := some chave,
    pqSignature := some chave }
  { t with id := some (cr.idPorOctetos t) }

theorem verify_assinada {amb : Ambiente} {chave endereco : String} {tx : Tx}
    (hp : (produtorDe chave endereco).Capaz amb.cripto)
    (hend : amb.cripto.isValidAddress endereco = true) (hcampos : Ambiente.verifyCampos tx = .ok ())
    (hdestino : amb.verifyDestino tx = .ok ()) (hdata : Ambiente.verifyData tx = .ok ()) :
    amb.verifyTransaction (tx.assinada amb.cripto chave endereco) = .ok () := by
  have hscheme : tx.scheme = signatureScheme := by
    obtain ⟨_, -, h⟩ := except_bind_eq_ok.mp hcampos
    obtain ⟨_, h, -⟩ := except_bind_eq_ok.mp h
    exact not_not.mp (falharSe_eq_ok.mp h)
  have hnaoEavm : (tx.assinada amb.cripto chave endereco).scheme ≠ eavmScheme := by
    change tx.scheme ≠ eavmScheme
    rw [hscheme]
    decide
  have hassina : amb.verifyAssinaturas (tx.assinada amb.cripto chave endereco) = .ok () := by
    unfold Ambiente.verifyAssinaturas Tx.assinada
    dsimp only
    rw [show amb.cripto.addressFromPublicKeys chave chave = some endereco from hp.derivado]
    obtain ⟨a, b, hsign, hver⟩ := hp.assina
      (bytesDe (tx.assinada amb.cripto chave endereco).signingPayload)
    cases hsign
    refine except_bind_eq_ok.mpr ⟨(), falharSe_eq_ok.mpr (not_not.mpr rfl), ?_⟩
    exact falharSe_eq_ok.mpr (ne_false_of_eq_true hver)
  unfold Ambiente.verifyTransaction
  rw [if_neg hnaoEavm]
  refine except_bind_eq_ok.mpr ⟨(), hcampos, ?_⟩
  refine except_bind_eq_ok.mpr ⟨(), falharSe_eq_ok.mpr (ne_false_of_eq_true hend), ?_⟩
  refine except_bind_eq_ok.mpr ⟨(), hdestino, except_bind_eq_ok.mpr ⟨(), hdata, ?_⟩⟩
  refine except_bind_eq_ok.mpr ⟨(), hassina, falharSe_eq_ok.mpr (not_not.mpr ?_)⟩
  exact congrArg some (txId_eq_idPorOctetos _ _).symm

/-! ## What an id weighs -/

/-- Entries of a map with the same keys and texts of the same size. -/
def MesmoPeso (e d : String × List Char) : Prop :=
  e.1 = d.1 ∧ (e.2.map Char.utf8Size).sum = (d.2.map Char.utf8Size).sum

theorem insereOrdenado_mesmoPeso {e d : String × List Char} (h : MesmoPeso e d)
    {es ds : List (String × List Char)} (hs : List.Forall₂ MesmoPeso es ds) :
    List.Forall₂ MesmoPeso (insereOrdenado e es) (insereOrdenado d ds) := by
  induction hs with
  | nil => exact .cons h .nil
  | cons h' hs ih =>
    unfold insereOrdenado
    rw [h.1, h'.1]
    split_ifs
    · exact .cons h' ih
    · exact .cons h (.cons h' hs)

theorem escreveMapa_mesmoPeso {es ds : List (String × List Char)}
    (h : List.Forall₂ MesmoPeso es ds) :
    ((escreveMapa es).map Char.utf8Size).sum = ((escreveMapa ds).map Char.utf8Size).sum := by
  have hordena : List.Forall₂ MesmoPeso (ordenaChaves es) (ordenaChaves ds) := by
    induction h with
    | nil => exact .nil
    | cons h _ ih => exact insereOrdenado_mesmoPeso h ih
  have hcampos : ∀ {as bs : List (String × List Char)}, List.Forall₂ MesmoPeso as bs →
      (([','].intercalate (as.map fun e => escreveString e.1 ++ ':' :: e.2)).map
        Char.utf8Size).sum =
      (([','].intercalate (bs.map fun e => escreveString e.1 ++ ':' :: e.2)).map
        Char.utf8Size).sum := by
    intro as bs hab
    induction hab with
    | nil => rfl
    | cons h hs ih =>
      cases hs with
      | nil => simp [List.intercalate, h.1, h.2]
      | cons h' hs' =>
        simp only [List.map_cons, List.intercalate_cons_cons, List.map_append, List.sum_append]
          at ih ⊢
        rw [ih, h.1]
        simp [h.2]
  unfold escreveMapa
  simp only [List.map_cons, List.map_append, List.sum_cons, List.sum_append, hcampos hordena]

/-- A hash of the size of any other. -/
def hashNulo : String :=
  "0000000000000000000000000000000000000000000000000000000000000000"

theorem escreveString_hexEncode (bs : Bytes) :
    ((escreveString (hexEncode bs)).map Char.utf8Size).sum = 2 * bs.length + 2 := by
  have hchar : ∀ n < 16, ((escreveChar (if n < 10 then Char.ofNat (48 + n) else
      Char.ofNat ((if false then 55 else 87) + n))).map Char.utf8Size).sum = 1 := by decide
  have hcorpo : (((bs.flatMap (hexByte false)).flatMap escreveChar).map Char.utf8Size).sum =
      2 * bs.length := by
    induction bs with
    | nil => rfl
    | cons b bs ih =>
      have hbaixo : b.toNat % 16 < 16 := Nat.mod_lt _ (by decide)
      have halto : b.toNat / 16 < 16 := Nat.div_lt_of_lt_mul (by have := b.toNat_lt; omega)
      have hb := hchar _ hbaixo
      have ha := hchar _ halto
      rw [List.flatMap_cons, List.flatMap_append, List.map_append, List.sum_append, ih,
        List.length_cons]
      have hdois : (((hexByte false b).flatMap escreveChar).map Char.utf8Size).sum = 2 := by
        unfold hexByte
        simp only [List.flatMap_cons, List.flatMap_nil, List.append_nil, List.map_append,
          List.sum_append]
        omega
      omega
  unfold escreveString hexEncode
  rw [String.toList_ofList, List.map_append, List.map_cons, List.sum_append, List.sum_cons, hcorpo]
  have hplica : Char.utf8Size '"' = 1 := by decide
  simp [hplica]
  omega

/-- The quota charges for the id of a signed transaction as for any hash. -/
theorem usefulTxBytes_assinada {cr : Cripto} (hd : cr.Digere) (chave endereco : String) (tx : Tx) :
    (tx.assinada cr chave endereco).usefulTxBytes =
      { tx.assinada cr chave endereco with id := some hashNulo }.usefulTxBytes := by
  have hpeso : ∀ (pares : List (String × JsonValue)) (a b : String),
      ((escreveString a).map Char.utf8Size).sum = ((escreveString b).map Char.utf8Size).sum →
      canonicalJsonLen (.map (pares ++ [("id", .str a)])) =
        canonicalJsonLen (.map (pares ++ [("id", .str b)])) := by
    intro pares a b hab
    refine escreveMapa_mesmoPeso ?_
    induction pares with
    | nil => exact .cons ⟨rfl, hab⟩ .nil
    | cons e es ih => exact .cons ⟨rfl, rfl⟩ ih
  refine hpeso _ _ _ ?_
  have hnulo : ((escreveString hashNulo).map Char.utf8Size).sum = 66 := by decide +kernel
  rw [hnulo]
  unfold Cripto.idPorOctetos Cripto.eavHash
  rw [escreveString_hexEncode, hd]

/-! ## Accepted transactions -/

/-- The size of the data of a transaction, measured on the bytes. -/
def dadosCabem (tx : Tx) : Bool :=
  match tx.data with
  | some (.map m) => decide ((octetosDe (.map m)).length ≤ Config.maxDataBytes)
  | _ => false

theorem verifyData_of_dadosCabem {tx : Tx} (h : dadosCabem tx = true) :
    Ambiente.verifyData tx = .ok () := by
  unfold Ambiente.verifyData
  rcases hdado : tx.data with _ | v
  · simp [dadosCabem, hdado] at h
  · cases v with
    | map m =>
      refine falharSe_eq_ok.mpr (not_lt.mpr ?_)
      rw [canonicalJsonLen_eq]
      rw [dadosCabem, hdado] at h
      exact of_decide_eq_true h
    | _ => simp [dadosCabem, hdado] at h

/-- The fee of a transaction, its size measured on the bytes. -/
def taxaPorOctetos (s : State) (tx : Tx) (height : ℕ) : R (Peek × Amount) := do
  let limite ← exigir (parseU128 tx.fee) "taxa inválida"
  let gb := peekGb (s.account tx.de) height (consumoPorOctetos tx)
  let fee ← taxaGb gb
  recusar (limite < fee) EavmTx.excedeu
  return (gb, fee)

theorem taxaPorOctetos_eq (s : State) (tx : Tx) (height : ℕ) :
    taxaPorOctetos s tx height = apurarTaxa s tx height := by
  unfold apurarTaxa EavmTx.apurarGb
  rw [consumoGb_eq]
  rfl

section

variable {amb : Ambiente} {s meio : State} {tx : Tx} {height blockTs recebido : ℕ} {gb : Peek}
  {fee : Amount}

/-- The fee of a signed transaction is that of the same one under another hash. -/
theorem apurarTaxa_assinada {cr : Cripto} (hd : cr.Digere) {chave endereco : String}
    (h : apurarTaxa s { tx.assinada cr chave endereco with id := some hashNulo } height =
      .ok (gb, fee)) :
    apurarTaxa s (tx.assinada cr chave endereco) height = .ok (gb, fee) := by
  have hconsumo : consumoGb (tx.assinada cr chave endereco) =
      consumoGb { tx.assinada cr chave endereco with id := some hashNulo } := by
    unfold consumoGb
    rw [usefulTxBytes_assinada hd]
  rw [← h]
  unfold apurarTaxa EavmTx.apurarGb
  rw [hconsumo]

/-- The state that a transaction leaves when its handler leaves `meio`. -/
def depoisDe (meio : State) (tx : Tx) (height recebido : ℕ) (gb : Peek) (fee : Amount) : State :=
  { meio.comConta tx.de fun c => commitGb height gb { c with nonce := recebido } with
    totalBurned := meio.totalBurned + fee }

theorem aceita_de_manipulador {tipo : Tipo} (hv : amb.verifyTransaction tx = .ok ())
    (htipo : Tipo.deTexto tx.txType = some tipo) (hentrada : conferirEntrada s tx = .ok recebido)
    (htaxa : apurarTaxa s tx height = .ok (gb, fee))
    (hmaneja : manipulador amb tx ⟨height, blockTs, fee⟩ tipo s = .ok ⟨⟩ meio)
    (hcabe : meio.totalBurned + fee < u128Limit) :
    Acao.Aceita amb (.transacao tx height blockTs) s
      (depoisDe meio tx height recebido gb fee) := by
  suffices haplica : applyTransaction amb tx height blockTs s = .ok { fee := fee, eavm := none } _
    from .transacao hv haplica
  unfold applyTransaction
  have hvm : tx.txType ∉ EavmTx.tipos := by
    intro hmem
    simp only [EavmTx.tipos, List.mem_cons, List.not_mem_nil, or_false] at hmem
    rcases hmem with heq | heq | heq <;> rw [heq] at htipo <;> cases htipo
  rw [get_bind_run, lift_bind_run hentrada, if_neg hvm]
  unfold aplicarNativa
  rw [lift_bind_run htaxa]
  dsimp only
  unfold despachar
  rw [htipo, bind_run_ok hmaneja, modify_bind_run]
  refine bind_eq_ok.mpr ⟨(), depoisDe meio tx height recebido gb fee, ?_, rfl⟩
  have hsoma : soma meio.totalBurned fee = .ok (meio.totalBurned + fee) :=
    soma_eq_ok.mpr ⟨rfl, hcabe⟩
  unfold queimarTaxa
  rw [get_bind_run]
  exact (lift_bind_run hsoma _).trans rfl

/-- What evaluation has to show for a signed transaction to be accepted. -/
def pronta (amb : Ambiente) (chave endereco : String) (tx : Tx) (tipo : Tipo) (s : State)
    (height blockTs recebido : ℕ) (gb : Peek) (fee : Amount) : Bool :=
  let assinada := tx.assinada amb.cripto chave endereco
  let taxa := taxaPorOctetos s { assinada with id := some hashNulo } height
  let manejo := manipulador amb assinada ⟨height, blockTs, fee⟩ tipo
  (Ambiente.verifyCampos tx).toOption.isSome && (amb.verifyDestino tx).toOption.isSome &&
    dadosCabem tx && Tipo.deTexto tx.txType == some tipo &&
    (conferirEntrada s assinada).toOption == some recebido &&
    taxa.toOption.map (fun r => (r.1.shortfall, r.1.usedAfter, r.2)) ==
      some (gb.shortfall, gb.usedAfter, fee) &&
    conclui manejo s && decide ((fim manejo s).totalBurned + fee < u128Limit)

theorem eq_ok_of_isSome {ε : Type} {x : Except ε Unit} (h : x.toOption.isSome = true) :
    x = .ok () := by
  cases x with
  | ok u => rfl
  | error e => cases h

theorem aceita_de_pronta {chave endereco : String} {tipo : Tipo}
    (hp : (produtorDe chave endereco).Capaz amb.cripto) (hd : amb.cripto.Digere)
    (h : pronta amb chave endereco tx tipo s height blockTs recebido gb fee = true) :
    Acao.Aceita amb (.transacao (tx.assinada amb.cripto chave endereco) height blockTs) s
      (depoisDe (fim (manipulador amb (tx.assinada amb.cripto chave endereco)
        ⟨height, blockTs, fee⟩ tipo) s) (tx.assinada amb.cripto chave endereco) height recebido gb
          fee) := by
  unfold pronta at h
  simp only [Bool.and_eq_true, beq_iff_eq, decide_eq_true_eq, taxaPorOctetos_eq] at h
  obtain ⟨⟨⟨⟨⟨⟨⟨hcampos, hdestino⟩, hdata⟩, htipo⟩, hentrada⟩, htaxa⟩, hmaneja⟩, hcabe⟩ := h
  have hv := verify_assinada hp (hp.valido hd) (eq_ok_of_isSome hcampos) (eq_ok_of_isSome hdestino)
    (verifyData_of_dadosCabem hdata)
  have hrecebido : conferirEntrada s (tx.assinada amb.cripto chave endereco) = .ok recebido := by
    cases hc : conferirEntrada s (tx.assinada amb.cripto chave endereco) with
    | ok n => rw [hc] at hentrada; exact congrArg _ (Option.some.inj hentrada)
    | error e => rw [hc] at hentrada; cases hentrada
  have hfee : apurarTaxa s { tx.assinada amb.cripto chave endereco with id := some hashNulo }
      height = .ok (gb, fee) := by
    cases hc : apurarTaxa s { tx.assinada amb.cripto chave endereco with id := some hashNulo }
      height with
    | ok r =>
      rw [hc] at htaxa
      obtain ⟨⟨shortfall, usedAfter⟩, f⟩ := r
      cases Option.some.inj htaxa
      rfl
    | error e => rw [hc] at htaxa; cases htaxa
  obtain ⟨⟨⟩, hok⟩ := conclui_iff.mp hmaneja
  exact aceita_de_manipulador hv htipo hrecebido (apurarTaxa_assinada hd hfee) hok hcabe

end

/-! ## A committee -/

/-- A signature recovers its key on the digest that it names, and nothing on any other. -/
def criptoComite : Cripto :=
  { criptoIdeal with recupera := fun digest r s _ => if s = digest then some (r ++ r) else none }

def ambienteComite : Ambiente := { ambienteIdeal with cripto := criptoComite }

def comiteDireto : Ambiente :=
  { ambienteDireto with
    cripto := { criptoDireta with
      recupera := fun digest r s _ => if s = digest then some (r ++ r) else none } }

theorem criptoComite_eq : criptoComite = comiteDireto.cripto := by
  unfold criptoComite comiteDireto
  rw [← criptoIdeal_eq]

theorem ambienteComite_eq : ambienteComite = comiteDireto := by
  unfold ambienteComite
  rw [criptoComite_eq, ambienteIdeal_eq]
  rfl

theorem digere_comite : criptoComite.Digere := digere_ideal

theorem capaz_comite {p : Produtor} (h : p ∈ trio) : p.Capaz criptoComite :=
  have hp := trio_capaz p h
  ⟨hp.endereco, hp.fio, hp.derivado, hp.assina⟩

/-- The account A is rich, staked and a relayer; the committee has one member. -/
def alocacoesPonte : JsonValue := .map
  [("balances", .map [(enderecoA, .str "1000000000")]),
    ("bridgeRelayers", .list [.str enderecoA]),
    ("bridgeSourceCommittees", .map [("ETH", .map
      [("members", .list [.str "0x4a62bf5e179ea78fd58a1ccd71c22cc9b688792f"]),
        ("quorum", .int 1)])]),
    ("stakes", .map [(enderecoA, .str "3000000000")])]

def estadoPonte : State := fim (applyGenesis criptoComite alocacoesPonte) {}

theorem genese_ponte : Genese ambienteComite estadoPonte := by
  have hconclui : conclui (applyGenesis criptoComite alocacoesPonte) {} = true := by decide +kernel
  obtain ⟨⟨⟩, h⟩ := conclui_iff.mp hconclui
  exact ⟨alocacoesPonte, h⟩

/-- What account A signs. -/
def assinaA (tx : Tx) : Tx := tx.assinada criptoComite (chaveIdeal 0) enderecoA

/-- The state after a transaction of account A. -/
def depoisDeA (tx : Tx) (tipo : Tipo) (s : State) (height recebido : ℕ) (gb : Peek) (fee : Amount) :
    State :=
  depoisDe (fim (manipulador ambienteComite (assinaA tx) ⟨height, height, fee⟩ tipo) s)
    (assinaA tx) height recebido gb fee

theorem aceita_de_A {tx : Tx} {tipo : Tipo} {s : State} {height recebido : ℕ} {gb : Peek}
    {fee : Amount} (h : pronta ambienteComite (chaveIdeal 0) enderecoA tx tipo s height height
      recebido gb fee = true) :
    Acao.Aceita ambienteComite (.transacao (assinaA tx) height height) s
      (depoisDeA tx tipo s height recebido gb fee) :=
  aceita_de_pronta (capaz_comite List.mem_cons_self) digere_comite h

end Eav7
