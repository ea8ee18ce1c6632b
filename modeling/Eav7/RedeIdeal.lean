import Eav7.Crescimento
import Eav7.Octetos

/-!
# A network of three producers

Three staked accounts with idealised keys, their genesis, and the chain that
starts from it. It grows over any increasing slots.
-/

namespace Eav7

open Base Blockchain

/-! ## The producers -/

/-- A signer whose signature of anything is its key. -/
def assinanteDe (chave : String) : BlockSigner where
  publicKeyPem := chave
  pqPublicKeyPem := chave
  sign _ := .ok (chave, chave)

def produtorDe (chave endereco : String) : Produtor :=
  { signer := assinanteDe chave, endereco := endereco, pk := chave, pq := chave }

theorem capaz_produtorDe {cr : Cripto} {chave endereco : String} {k : Bytes}
    (hchaves : cr.chavesDePem chave chave = some (k, k)) (hk : base64Decode chave.toList = k)
    (hend : cr.deriveAddressFrom (k ++ k) = endereco) (hfio : encodePublicKeyWire chave = .ok chave)
    (hecdsa : ∀ payload, cr.verificaEcdsa k payload k = true)
    (hpq : ∀ payload, cr.verificaPq k payload k = true) :
    (produtorDe chave endereco).Capaz cr := by
  have hder : cr.addressFromPublicKeys chave chave = some endereco := by
    unfold Cripto.addressFromPublicKeys
    rw [hchaves, Option.map_some, hend]
  refine ⟨?_, ?_, hder, ?_⟩
  · simp only [enderecoDoProdutor, produtorDe, assinanteDe, hder]
  · refine except_bind_eq_ok.mpr ⟨_, hfio, ?_⟩
    exact except_bind_eq_ok.mpr ⟨_, hfio, rfl⟩
  · intro payload
    refine ⟨chave, chave, rfl, ?_⟩
    simp only [produtorDe, Cripto.hybridVerify, hchaves, hk, hecdsa, hpq, Bool.and_self]

def enderecoA : String := "E785C65D13C8719B9F883FE61D15ADFF78"
def enderecoB : String := "E77CCB4CCC97518F33880A3343C803813C"
def enderecoC : String := "E75A082D30B3671A43C345CD1FE95B0F9D"

/-- The producers, by decreasing stake. -/
def trio : List Produtor :=
  [produtorDe (chaveIdeal 0) enderecoA, produtorDe (chaveIdeal 1) enderecoB,
    produtorDe (chaveIdeal 2) enderecoC]

theorem capaz_ideal {n : ℕ} {endereco : String}
    (hchaves : criptoIdeal.chavesDePem (chaveIdeal n) (chaveIdeal n) =
      some (bytesIdeais n, bytesIdeais n))
    (hk : base64Decode (chaveIdeal n).toList = bytesIdeais n)
    (hend : criptoIdeal.deriveAddressFrom (bytesIdeais n ++ bytesIdeais n) = endereco)
    (hfio : encodePublicKeyWire (chaveIdeal n) = .ok (chaveIdeal n)) :
    (produtorDe (chaveIdeal n) endereco).Capaz criptoIdeal := by
  have hver : ∀ payload, (fun chave _ assinatura => assinatura == chave : Bytes → Bytes → Bytes → Bool)
      (bytesIdeais n) payload (bytesIdeais n) = true := fun _ => beq_self_eq_true _
  exact capaz_produtorDe hchaves hk hend hfio hver hver

theorem digere_ideal : criptoIdeal.Digere := fun data => Keccak.sha3_length data

/-! ## Its genesis -/

def apostasTrio : List (String × JsonValue) :=
  [(enderecoC, .str "1000000000"), (enderecoB, .str "2000000000"), (enderecoA, .str "3000000000")]

def alocacoesTrio : List (String × JsonValue) := [("stakes", .map apostasTrio)]

def contasTrio : OrdMap String Account :=
  ((OrdMap.empty.insert enderecoC (contaQuieta 0 1000000000)).insert enderecoB
    (contaQuieta 0 2000000000)).insert enderecoA (contaQuieta 0 3000000000)

def estadoTrio : State := quieto contasTrio ∅ 0

theorem stakesGenese_quieto {a : OrdMap String Account} {k : OrdMap String Contract} {m v : Amount}
    {e : String} {valor : JsonValue} (resto : List (String × JsonValue))
    (hv : amountGenese valor = .ok v) (hnova : a.get? e = none) (hlim : v < u128Limit) :
    stakesGenese ((e, valor) :: resto) (quieto a k m) =
      stakesGenese resto (quieto (a.insert e (contaQuieta 0 v)) k m) := by
  have hconta : (quieto a k m).account e = {} := by
    change (a.get? e).getD {} = {}
    rw [hnova]
    rfl
  have hcabe : recusar (u128Limit ≤ ((quieto a k m).account e).staked + v)
      "estouro no stake do gênese" = .ok () := by
    refine recusar_eq_ok.mpr (not_le.mpr ?_)
    rw [hconta]
    exact (Nat.zero_add v).symm ▸ hlim
  have hnovo : (quieto a k m).comConta e (fun c => { c with staked := c.staked + v }) =
      quieto (a.insert e (contaQuieta 0 v)) k m := by
    unfold State.comConta
    rw [hconta]
    simp only [quieto, contaQuieta, Nat.zero_add]
  rw [stakesGenese]
  cases hr : stakesGenese resto (quieto (a.insert e (contaQuieta 0 v)) k m) with
  | ok u s =>
    refine bind_eq_ok.mpr ⟨v, _, lift_eq_ok.mpr ⟨hv, rfl⟩, ?_⟩
    rw [get_bind_run]
    refine bind_eq_ok.mpr ⟨(), _, lift_eq_ok.mpr ⟨hcabe, rfl⟩, ?_⟩
    rw [modify_bind_run, hnovo]
    exact hr
  | error x s =>
    refine bind_eq_error.mpr (.inr ⟨v, _, lift_eq_ok.mpr ⟨hv, rfl⟩, ?_⟩)
    rw [get_bind_run]
    refine bind_eq_error.mpr (.inr ⟨(), _, lift_eq_ok.mpr ⟨hcabe, rfl⟩, ?_⟩)
    rw [modify_bind_run, hnovo]
    exact hr

theorem enderecos_ordenados : enderecoC < enderecoB ∧ enderecoB < enderecoA := by decide +kernel

theorem trio_distinto : (trio.map (·.endereco)).Nodup := by
  obtain ⟨hcb, hba⟩ := enderecos_ordenados
  have hnodup : [enderecoA, enderecoB, enderecoC].Nodup := by
    simp [hcb.ne', hba.ne', (hcb.trans hba).ne']
  exact hnodup

theorem paresDe_apostas : paresDe (some (.map apostasTrio)) = apostasTrio := by
  obtain ⟨hcb, hba⟩ := enderecos_ordenados
  simp [paresDe, mapaDe, apostasTrio, OrdMap.ofList, OrdMap.insert, OrdMap.empty,
    OrdMap.insertEntry, hcb, hba]

theorem estadoGenese_trio :
    estadoGenese criptoIdeal (geneseCom criptoIdeal alocacoesTrio []) = .ok estadoTrio := by
  obtain ⟨hcb, hba⟩ := enderecos_ordenados
  have hca : enderecoC < enderecoA := hcb.trans hba
  have hstakes : stakesGenese apostasTrio (quieto OrdMap.empty ∅ 0) = .ok () estadoTrio := by
    unfold apostasTrio
    rw [stakesGenese_quieto (v := 1000000000) _ (by decide +kernel) rfl (by decide),
      stakesGenese_quieto (v := 2000000000) _ (by decide +kernel) ?_ (by decide),
      stakesGenese_quieto (v := 3000000000) _ (by decide +kernel) ?_ (by decide)]
    · rfl
    · rw [OrdMap.get?_insert_of_ne _ hba.ne', OrdMap.get?_insert_of_ne _ hca.ne']
      rfl
    · rw [OrdMap.get?_insert_of_ne _ hcb.ne']
      rfl
  have haplica : applyGenesis criptoIdeal (.map alocacoesTrio) {} = .ok () estadoTrio := by
    unfold applyGenesis
    refine bind_eq_ok.mpr ⟨(), _, rfl, ?_⟩
    have hcampo : (JsonValue.map alocacoesTrio).campo "stakes" = some (.map apostasTrio) := rfl
    rw [hcampo, paresDe_apostas]
    refine bind_eq_ok.mpr ⟨(), _, hstakes, ?_⟩
    rfl
  unfold estadoGenese
  refine except_bind_eq_ok.mpr ⟨.map alocacoesTrio, rfl, ?_⟩
  exact except_bind_eq_ok.mpr ⟨_, executar_eq_ok.mpr haplica, rfl⟩

theorem validators_trio : ∃ vs, estadoTrio.validators = .ok vs ∧
    vs.map (·.address) = trio.map (·.endereco) := by
  refine ⟨_, rfl, ?_⟩
  decide +kernel

theorem parado_trio : Parado 0 estadoTrio := by
  refine ⟨rfl, ?_, Nat.zero_le _, ?_⟩
  · intro a acc hg
    change contasTrio.get? a = some acc at hg
    unfold contasTrio at hg
    rw [OrdMap.get?_insert, OrdMap.get?_insert, OrdMap.get?_insert] at hg
    split_ifs at hg
    · cases hg
      exact ⟨0, 3000000000, rfl, Nat.zero_le _, by decide⟩
    · cases hg
      exact ⟨0, 2000000000, rfl, Nat.zero_le _, by decide⟩
    · cases hg
      exact ⟨0, 1000000000, rfl, Nat.zero_le _, by decide⟩
    · cases hg
  · intro a ctr hg
    cases hg

/-- The keys of the trio are read in their compact form, and give its addresses. -/
instance chaves_do_trio : Fact (∀ p ∈ [((0 : ℕ), enderecoA), (1, enderecoB), (2, enderecoC)],
    criptoIdeal.chavesDePem (chaveIdeal p.1) (chaveIdeal p.1) =
        some (bytesIdeais p.1, bytesIdeais p.1) ∧
      base64Decode (chaveIdeal p.1).toList = bytesIdeais p.1 ∧
      criptoIdeal.deriveAddressFrom (bytesIdeais p.1 ++ bytesIdeais p.1) = p.2 ∧
      encodePublicKeyWire (chaveIdeal p.1) = .ok (chaveIdeal p.1)) where
  out := by
    rw [criptoIdeal_eq]
    decide +kernel

theorem trio_capaz : ∀ p ∈ trio, p.Capaz criptoIdeal := by
  have hcapaz {n : ℕ} {endereco : String}
      (h : (n, endereco) ∈ [(0, enderecoA), (1, enderecoB), (2, enderecoC)]) :
      (produtorDe (chaveIdeal n) endereco).Capaz criptoIdeal := by
    obtain ⟨hchaves, hk, hend, hfio⟩ := chaves_do_trio.out _ h
    exact capaz_ideal hchaves hk hend hfio
  simp only [trio, List.forall_mem_cons]
  exact ⟨hcapaz (by simp), hcapaz (by simp), hcapaz (by simp), by simp⟩

namespace Blockchain

def geneseTrio : Block := geneseCom criptoIdeal alocacoesTrio []

def hashGeneseTrio : String := "8ca0754c25b217f47847bc617e9cf4675e35cd8f562a2e3c4235d048e5a5955a"

instance hash_geneseTrio : Fact (geneseTrio.hash = hashGeneseTrio) where
  out := by
    have hintegra := geneseCom_integra criptoIdeal alocacoesTrio []
    rw [geneseTrio, hash_of_integrity hintegra]
    refine (criptoIdeal.eavHashOne_canonicalJson geneseTrio.core).trans ?_
    unfold geneseTrio
    rw [criptoIdeal_eq]
    decide +kernel

/-- The chain of the network, with its genesis alone. -/
def cadeiaTrio : Blockchain := cadeiaDe ambienteIdeal alocacoesTrio [] estadoTrio

theorem corrida_trio : Corrida ambienteIdeal [geneseTrio] cadeiaTrio :=
  corrida_cadeiaDe estadoGenese_trio

theorem coerente_trio : Coerente ambienteIdeal geneseTrio [] cadeiaTrio :=
  coerente_comGenese rfl estadoGenese_trio

theorem pronta_trio : Pronta ambienteIdeal trio 0 cadeiaTrio := by
  have hhash : isValidHash (geneseCom criptoIdeal alocacoesTrio []).hash = true :=
    digere_ideal.eavHash _
  refine ⟨rfl, rfl, ⟨_, rfl, rfl, hhash⟩, parado_trio, validators_trio, ?_⟩
  intro p _ ks hks
  cases hks

theorem cresce_trio (slots : List ℕ) (hasc : (0 :: slots).Pairwise (· < ·))
    (hmax : ∀ s ∈ slots, s ≤ 10 ^ 6) (hn : slots.length ≤ 10 ^ 6) :
    ∃ bs c, Cresceu ambienteIdeal trio (10 ^ 9) slots 0 cadeiaTrio bs c :=
  pronta_trio.cresce digere_ideal trio_capaz trio_distinto (by decide) le_rfl slots
    (by rintro u ⟨⟩; decide) hasc hmax (by omega)

end Blockchain
end Eav7
