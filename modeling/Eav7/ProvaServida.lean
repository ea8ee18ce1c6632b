import Eav7.Carga
import Eav7.Prova

/-!
# Proofs as a node serves them and a client reads them

An account is written three times by hand: for the leaf, for the reply and back from the
reply. The reply leaves the two counters of the GB track out, so a client verifies the
honest reply for an account exactly when both are zero.
-/

namespace Eav7

open Base Base.Merkle

/-! ## The node -/

/-- The address that a route names, native or 0x. -/
def Cripto.enderecoDaRota (cr : Cripto) (enderecoCru : String) : Option String :=
  match cr.eavmToE7 enderecoCru with
  | some e7 => some e7
  | none => if cr.isValidAddress enderecoCru then some enderecoCru else none

abbrev ApiReply := ℕ × JsonValue

namespace Api

def reply (code : ℕ) (erro : String) : ApiReply := (code, .map [("error", .str erro)])

/-- Large integers as text with a `B`; the counters of the GB track are not written. -/
def encodedAccount (acc : Account) : JsonValue := .map <|
  ([("balance", .str s!"B{acc.balance}"), ("bandwidthBlock", .int acc.bandwidthBlock),
    ("bandwidthUsed", .int acc.bandwidthUsed), ("delegatedIn", .str s!"B{acc.delegatedIn}"),
    ("delegatedOut", .str s!"B{acc.delegatedOut}")] :
    List (String × JsonValue)) ++
  (if acc.eavmManaged then [("eavmManaged", .bool true)] else []) ++
  ([("energyBlock", .int acc.energyBlock), ("energyUsed", .int acc.energyUsed),
    ("nonce", .int acc.nonce), ("staked", .str s!"B{acc.staked}")] : List (String × JsonValue))

def passoJson (p : PathStep) : JsonValue := .map [("hash", .str p.hash), ("right", .bool p.right)]

def corpoDaProva (bc : Blockchain) (raiz endereco : String) (conta : Account)
    (caminho : List PathStep) : JsonValue := .map
  [("address", .str endereco), ("height", .int bc.height), ("stateRoot", .str raiz),
    ("encodedAccount", encodedAccount conta), ("path", .list (caminho.map passoJson))]

/-- The reply for an account at an address of the state. -/
def provaDaConta (cr : Cripto) (bc : Blockchain) (raiz endereco : String) (conta : Account) :
    ApiReply :=
  match cr.accountLeaf endereco conta.toValue, cr.stateLeaves bc.state with
  | .ok alvo, .ok folhas =>
    match (sortLeaves folhas).idxOf? alvo with
    | none => reply 404 "conta inexistente"
    | some idx =>
      (200, corpoDaProva bc raiz endereco conta (cr.merklePath (sortLeaves folhas) idx))
  | _, _ => reply 500 "erro interno ao processar a requisição"

def proof (cr : Cripto) (bc : Blockchain) (enderecoCru : String) : ApiReply :=
  match cr.enderecoDaRota enderecoCru with
  | none => reply 400 "endereço inválido"
  | some endereco =>
    match bc.head.bind (·.stateRoot) with
    | none => reply 501 "stateRoot indisponível nesta altura (fork não ativo)"
    | some raiz =>
      match bc.state.accounts.get? endereco with
      | none => reply 404 "conta inexistente"
      | some conta => provaDaConta cr bc raiz endereco conta

end Api

/-! ## The client -/

/-- The errors of the client; `naoCanonico` and `formaInesperada` quote what they found
in a field. -/
inductive ErroCliente where
  | api (status : ℕ) (mensagem : String)
  | resposta (mensagem : String)
  | provaInvalida (mensagem : String)
  | naoCanonico (campo valor : String)
  | formaInesperada (campo : String) (valor : JsonValue)

namespace Cliente

def campoCanonico (campo : String × JsonValue) : Except ErroCliente (String × Value) :=
  match campo.2 with
  | .str s =>
    match s.toList with
    | 'B' :: digitos =>
      match Value.intStr (String.ofList digitos) with
      | some v => .ok (campo.1, v)
      | none => .error (.naoCanonico campo.1 (String.ofList digitos))
    | _ => .ok (campo.1, .str s)
  | .int n => .ok (campo.1, .int (toString n))
  | .bool b => .ok (campo.1, .bool b)
  | .null => .ok (campo.1, .null)
  | outro => .error (.formaInesperada campo.1 outro)

def contaCanonica (v : JsonValue) : Except ErroCliente Value :=
  match v with
  | .map m => (m.mapM campoCanonico).map Value.campos
  | _ => .error (.resposta "encodedAccount não é objeto")

def exigirResposta {α : Type} (v : Option α) (mensagem : String) : Except ErroCliente α :=
  v.elim (.error (.resposta mensagem)) .ok

def passoDe (p : JsonValue) : Except ErroCliente PathStep := do
  let hash ← exigirResposta (texto (p.campo "hash")) "passo sem hash"
  let right ← exigirResposta (match p.campo "right" with
    | some (.bool b) => some b
    | _ => none) "passo sem `right`"
  return ⟨hash, right⟩

def caminhoDe (v : Option JsonValue) : Except ErroCliente (List PathStep) :=
  match v with
  | some (.list passos) => passos.mapM passoDe
  | _ => .error (.resposta "prova sem `path`")

/-- The balance of a proved account. -/
def saldoDe (conta : Value) : Amount :=
  match conta with
  | .map m =>
    match m.lookup "balance" with
    | some (.int d) => (parseU128 d).getD 0
    | some (.str s) => (parseU128 s).getD 0
    | _ => 0
  | _ => 0

/-- The body of a reply that is no error. -/
def corpoDe (r : ApiReply) : Except ErroCliente JsonValue :=
  if r.1 < 400 then .ok r.2
  else .error (.api r.1 ((texto (r.2.campo "error")).getD "sem detalhe"))

def saldoProvado (cr : Cripto) (r : ApiReply) (endereco : String) (raizConfiavel : Option String) :
    Except ErroCliente Amount := do
  let v ← corpoDe r
  let raizDoNo ← exigirResposta (texto (v.campo "stateRoot")) "prova sem stateRoot"
  if raizConfiavel.any (· != raizDoNo) then
    .error (.provaInvalida (s!"o nó afirma a raiz {raizDoNo}, esperada " ++ raizConfiavel.getD ""))
  let codificada ← exigirResposta (v.campo "encodedAccount") "prova sem encodedAccount"
  let conta ← contaCanonica codificada
  let caminho ← caminhoDe (v.campo "path")
  if cr.verifyAccountProof raizDoNo endereco conta caminho = false then
    .error (.provaInvalida s!"o caminho não leva à raiz para {endereco}")
  return saldoDe conta

end Cliente

/-! ## Decimal text -/

theorem eDigito_of_mem {n : ℕ} {c : Char} (h : c ∈ Nat.toDigits 10 n) : eDigito c = true := by
  obtain ⟨hzero, hnove⟩ := Carga.faixa_of_mem h
  unfold eDigito
  rw [decide_eq_true hzero, decide_eq_true hnove]
  rfl

/-- The digits of a number start with no sign. -/
theorem sem_sinal {n : ℕ} {c : Char} {cs : List Char} (h : Nat.toDigits 10 n = c :: cs) :
    c ≠ '-' ∧ c ≠ '+' := by
  have hc := Carga.faixa_of_mem (h ▸ List.mem_cons_self : c ∈ Nat.toDigits 10 n)
  constructor
  · rintro rfl
    exact absurd hc (by decide)
  · rintro rfl
    exact absurd hc (by decide)

/-- The decimal text of a number is in canonical form. -/
theorem intStr_toString (n : ℕ) : Value.intStr (toString n) = some (.int (toString n)) := by
  obtain ⟨c, cs, hcs⟩ := List.exists_cons_of_ne_nil (Nat.toDigits_ne_nil (b := 10) (n := n))
  obtain ⟨hmenos, -⟩ := sem_sinal hcs
  have hdigitos : (Nat.toDigits 10 n).all eDigito = true :=
    List.all_eq_true.mpr fun c hc => eDigito_of_mem hc
  have hzero : ¬ (1 < (Nat.toDigits 10 n).length ∧ (Nat.toDigits 10 n).head? = some '0') := by
    rintro ⟨hlen, hhead⟩
    rcases Nat.eq_zero_or_pos n with rfl | hpos
    · exact absurd hlen (by decide)
    · exact Carga.head_toDigits hpos hhead
  rw [← Carga.nat_toString_toList] at hcs hdigitos hzero
  exact Value.intStr_of_digitos hcs hmenos hdigitos hzero

theorem digito?_of_faixa {c : Char} (h : '0' ≤ c ∧ c ≤ '9') :
    digito? 10 c = some (c.toNat - '0'.toNat) := by
  have hle : c.toNat ≤ 57 := UInt32.le_iff_toNat_le.mp (Char.le_def.mp h.2)
  have hzero : '0'.toNat = 48 := rfl
  unfold digito?
  rw [if_pos h, hzero]
  exact Option.filter_some_pos (decide_eq_true (by omega))

theorem digitos?_of_faixa {cs : List Char} (h : ∀ c ∈ cs, '0' ≤ c ∧ c ≤ '9') (acc : ℕ) :
    digitos? 10 cs acc = some (Nat.ofDigitChars 10 cs acc) := by
  induction cs generalizing acc with
  | nil => rfl
  | cons c cs ih =>
    obtain ⟨hc, hcs⟩ := List.forall_mem_cons.mp h
    rw [digitos?, digito?_of_faixa hc, Option.bind_some, ih hcs, Nat.ofDigitChars_cons, mul_comm]

theorem parseU128_toString {n : ℕ} (h : n < u128Limit) : parseU128 (toString n) = some n := by
  obtain ⟨c, cs, hcs⟩ := List.exists_cons_of_ne_nil (Nat.toDigits_ne_nil (b := 10) (n := n))
  obtain ⟨-, hmais⟩ := sem_sinal hcs
  have hnatural : natural? 10 (Nat.toDigits 10 n) = some n := by
    have hdigitos := digitos?_of_faixa (fun _ => @Carga.faixa_of_mem n _) 0
    rw [Nat.ofDigitChars_ten_toDigits] at hdigitos
    rw [hcs] at hdigitos ⊢
    exact hdigitos
  unfold parseU128
  rw [Carga.nat_toString_toList, hcs]
  split
  · rename_i h
    exact absurd (List.cons.inj h).1 hmais
  · rw [← hcs, hnatural]
    exact Option.filter_some_pos (decide_eq_true h)

/-! ## What the client reads back -/

namespace Account

/-- The account as the reply shows it. -/
def semGb (acc : Account) : Account := { acc with gbUsed := 0, gbBlock := 0 }

/-- The fields of an account besides the counters of the GB track. -/
def camposSemGb (acc : Account) : List (String × Value) :=
  [("balance", Value.uint acc.balance), ("bandwidthBlock", Value.uint acc.bandwidthBlock),
    ("bandwidthUsed", Value.uint acc.bandwidthUsed),
    ("delegatedIn", Value.uint acc.delegatedIn), ("delegatedOut", Value.uint acc.delegatedOut)] ++
  ((if acc.eavmManaged then [("eavmManaged", .bool true)] else []) ++
  [("energyBlock", Value.uint acc.energyBlock), ("energyUsed", Value.uint acc.energyUsed),
    ("nonce", Value.uint acc.nonce), ("staked", Value.uint acc.staked)])

def camposGb (acc : Account) : List (String × Value) :=
  if acc.gbUsed ≠ 0 ∨ acc.gbBlock ≠ 0 then
    [("gbBlock", Value.uint acc.gbBlock), ("gbUsed", Value.uint acc.gbUsed)] else []

theorem nodup_campos (acc : Account) :
    ((acc.camposSemGb ++ acc.camposGb).map Prod.fst).Nodup := by
  unfold camposSemGb camposGb
  split_ifs <;> simp

theorem toValue_eq (acc : Account) :
    acc.toValue = Value.campos (acc.camposSemGb ++ acc.camposGb) := by
  refine congrArg (fun m => Value.map (OrdMap.entries m))
    (OrdMap.ofList_eq_of_perm acc.nodup_campos ?_).symm
  exact List.Perm.append_right _ (List.perm_append_comm.append_left _)

theorem toValue_semGb (acc : Account) : acc.semGb.toValue = Value.campos acc.camposSemGb := by
  rw [toValue_eq]
  exact congrArg Value.campos (List.append_nil _)

/-- The counters of the GB track are written exactly when one is not zero. -/
theorem toValue_eq_semGb {acc : Account} :
    acc.semGb.toValue = acc.toValue ↔ acc.gbUsed = 0 ∧ acc.gbBlock = 0 := by
  constructor
  · intro h
    by_contra hgb
    have hcampos : acc.camposGb =
        [("gbBlock", Value.uint acc.gbBlock), ("gbUsed", Value.uint acc.gbUsed)] := by
      unfold camposGb
      rw [if_pos (by tauto)]
    have hmem : (OrdMap.ofList (acc.camposSemGb ++ acc.camposGb)).get? "gbBlock" =
        some (Value.uint acc.gbBlock) := by
      rw [OrdMap.get?_ofList acc.nodup_campos, hcampos]
      exact List.mem_append_right _ List.mem_cons_self
    rw [toValue_semGb, toValue_eq] at h
    have hmapas : OrdMap.ofList acc.camposSemGb = OrdMap.ofList (acc.camposSemGb ++ acc.camposGb) :=
      OrdMap.ext (Value.map.inj h)
    rw [← hmapas,
      OrdMap.get?_ofList (List.Nodup.of_append_left (List.map_append ▸ acc.nodup_campos))] at hmem
    unfold camposSemGb at hmem
    split_ifs at hmem <;> simp at hmem
  · rintro ⟨hused, hblock⟩
    have hsem : acc.semGb = acc := by
      obtain ⟨⟩ := acc
      cases hused
      cases hblock
      rfl
    rw [hsem]

/-- The client finds the balance in the canonical form. -/
theorem saldoDe_toValue {acc : Account} (h : acc.balance < u128Limit) :
    Cliente.saldoDe acc.toValue = acc.balance := by
  have hcampo : (OrdMap.ofList (acc.camposSemGb ++ acc.camposGb)).entries.lookup "balance" =
      some (Value.uint acc.balance) := by
    rw [OrdMap.lookup_entries, OrdMap.get?_ofList acc.nodup_campos]
    exact List.mem_cons_self
  rw [toValue_eq]
  unfold Cliente.saldoDe Value.campos
  dsimp only
  rw [hcampo]
  exact congrArg (·.getD 0) (parseU128_toString h)

end Account

theorem mapM_eq_ok {ε α β : Type} {f : α → Except ε β} {as : List α} {bs : List β}
    (h : List.Forall₂ (fun a b => f a = .ok b) as bs) : as.mapM f = .ok bs := by
  induction h with
  | nil => rfl
  | cons hab _ ih =>
    rw [List.mapM_cons, hab, ih]
    rfl

/-- A text with a leading `B` is read as an integer. -/
theorem campoCanonico_inteiro {nome texto : String} {digitos : List Char} {v : Value}
    (htexto : texto.toList = 'B' :: digitos) (hv : Value.intStr (String.ofList digitos) = some v) :
    Cliente.campoCanonico (nome, .str texto) = .ok (nome, v) := by
  unfold Cliente.campoCanonico
  simp only [htexto, hv]

/-- The client recovers the account of the reply, without the counters of the GB track. -/
theorem contaCanonica_encodedAccount (acc : Account) :
    Cliente.contaCanonica (Api.encodedAccount acc) = .ok acc.semGb.toValue := by
  have hgrande : ∀ (nome : String) (n : Amount),
      Cliente.campoCanonico (nome, .str s!"B{n}") = .ok (nome, Value.uint n) := by
    intro nome n
    have htexto : ("B" ++ toString n).toList = 'B' :: (toString n).toList := String.toList_append
    refine campoCanonico_inteiro htexto ?_
    rw [String.ofList_toList]
    exact intStr_toString n
  have hpequeno : ∀ (nome : String) (n : ℕ),
      Cliente.campoCanonico (nome, .int n) = .ok (nome, Value.uint n) := fun _ _ => rfl
  have hcampos : ∃ m, Api.encodedAccount acc = .map m ∧
      List.Forall₂ (fun e d => Cliente.campoCanonico e = .ok d) m acc.camposSemGb := by
    refine ⟨_, rfl, ?_⟩
    unfold Account.camposSemGb
    rw [List.append_assoc]
    refine List.rel_append ?_ (List.rel_append ?_ ?_)
    · exact .cons (hgrande _ _) (.cons (hpequeno _ _) (.cons (hpequeno _ _)
        (.cons (hgrande _ _) (.cons (hgrande _ _) .nil))))
    · split_ifs
      · exact .cons rfl .nil
      · exact .nil
    · exact .cons (hpequeno _ _) (.cons (hpequeno _ _) (.cons (hpequeno _ _)
        (.cons (hgrande _ _) .nil)))
  obtain ⟨m, hm, hcampos⟩ := hcampos
  rw [Account.toValue_semGb, hm]
  exact congrArg (·.map Value.campos) (mapM_eq_ok hcampos)

/-- The client recovers the path of the reply. -/
theorem caminhoDe_passoJson (caminho : List PathStep) :
    Cliente.caminhoDe (some (.list (caminho.map Api.passoJson))) = .ok caminho := by
  refine mapM_eq_ok ?_
  induction caminho with
  | nil => exact .nil
  | cons p ps ih => exact .cons rfl ih

/-! ## Honest replies -/

section Honesta

variable {cr : Cripto} {bc : Blockchain} {raiz endereco rota : String} {conta : Account}

/-- The path in the reply for an account. -/
def caminhoServido (cr : Cripto) (s : State) (endereco : String) (conta : Account) :
    List PathStep :=
  match cr.accountLeaf endereco conta.toValue, cr.stateLeaves s with
  | .ok alvo, .ok folhas => cr.merklePath (sortLeaves folhas) ((sortLeaves folhas).idxOf alvo)
  | _, _ => []

/-- The same path in bytes. -/
def caminhoEmResumos (cr : Cripto) (s : State) (endereco : String) (conta : Account) :
    List (Merkle.Passo Bytes) :=
  match cr.resumo ("acct", endereco, conta.toValue), cr.resumos s.enumerar with
  | .ok alvo, .ok ds =>
    let ordem := ordenaResumos ds
    if ordem.length ≤ ordem.idxOf alvo then []
    else cr.caminhoDosResumos ordem.length ordem (ordem.idxOf alvo)
  | _, _ => []

theorem idxOf_map_hexEncode (ds : List Bytes) (d : Bytes) :
    (ds.map hexEncode).idxOf (hexEncode d) = ds.idxOf d := by
  have higual : (· == hexEncode d) ∘ hexEncode = (· == d) := by
    funext x
    exact Bool.eq_iff_iff.mpr (beq_iff_eq.trans (Iff.trans ⟨hexEncode_inj, congrArg _⟩
      beq_iff_eq.symm))
  unfold List.idxOf
  rw [List.findIdx_map, higual]

theorem caminhoServido_eq (cr : Cripto) (s : State) (endereco : String) (conta : Account) :
    caminhoServido cr s endereco conta =
      (caminhoEmResumos cr s endereco conta).map (Passo.map hexEncode) := by
  unfold caminhoServido caminhoEmResumos Cripto.accountLeaf Cripto.stateLeaves
  rw [cr.leaf_eq_resumo, cr.folhas_eq_resumos]
  cases cr.resumo ("acct", endereco, conta.toValue) with
  | error _ => rfl
  | ok alvo =>
    cases cr.resumos s.enumerar with
    | error _ => rfl
    | ok ds =>
      change cr.merklePath (sortLeaves (ds.map hexEncode))
        ((sortLeaves (ds.map hexEncode)).idxOf (hexEncode alvo)) = _
      unfold sortLeaves Cripto.merklePath
      rw [insertionSort_hexEncode, idxOf_map_hexEncode, List.length_map, merkleCaminho_map]
      dsimp only
      split_ifs <;> rfl

/-- What is hashed on the path, from the digests. -/
theorem preimagens_servidas (cr : Cripto) (s : State) (endereco : String) (conta : Account)
    (x : Bytes) :
    preimagens cr.noDe parDe (cr.eavHash x) (caminhoServido cr s endereco conta) =
      preimagens cr.noDeResumos parDeResumos (cr.sha3 x)
        (caminhoEmResumos cr s endereco conta) := by
  rw [caminhoServido_eq]
  exact preimagens_map noDe_hexEncode parDe_hexEncode _ _

theorem leaf_ok {es : List Registro} {folhas : List String} (h : cr.folhas es = .ok folhas) :
    ∀ e ∈ es, ∃ folha, cr.leaf e = .ok folha := by
  induction es generalizing folhas with
  | nil => exact fun _ he => absurd he List.not_mem_nil
  | cons d es ih =>
    obtain ⟨f, hf, h⟩ := except_bind_eq_ok.mp h
    obtain ⟨fs, hfs, h⟩ := except_bind_eq_ok.mp h
    exact List.forall_mem_cons.mpr ⟨⟨f, hf⟩, ih hfs⟩

/-- The reply for an account of the state, and where its path leads. -/
theorem provaDaConta_eq (hraiz : cr.stateRootOf bc.state = .ok raiz)
    (hconta : bc.state.accounts.get? endereco = some conta) :
    Api.provaDaConta cr bc raiz endereco conta = (200, Api.corpoDaProva bc raiz endereco conta
      (caminhoServido cr bc.state endereco conta)) ∧
    ∃ canonico, conta.toValue.encode = .ok canonico ∧
      destino cr endereco canonico (caminhoServido cr bc.state endereco conta) = raiz := by
  obtain ⟨folhas, hfolhas, hcalculada⟩ : ∃ folhas, cr.stateLeaves bc.state = .ok folhas ∧
      cr.computeStateRoot folhas = raiz := by
    unfold Cripto.stateRootOf at hraiz
    cases hf : cr.stateLeaves bc.state with
    | ok folhas =>
      rw [hf] at hraiz
      exact ⟨folhas, rfl, Except.ok.inj hraiz⟩
    | error e =>
      rw [hf] at hraiz
      cases hraiz
  have hmem := mem_enumerar_acct.mpr ⟨conta, hconta, rfl⟩
  obtain ⟨alvo, halvo, hfolha⟩ : ∃ alvo, cr.accountLeaf endereco conta.toValue = .ok alvo ∧
      alvo ∈ folhas := by
    obtain ⟨alvo, halvo⟩ := leaf_ok hfolhas _ hmem
    exact ⟨alvo, halvo, (mem_folhas hfolhas).mpr ⟨_, hmem, halvo⟩⟩
  obtain ⟨canonico, hcanonico, rfl⟩ := leaf_eq_ok.mp halvo
  have hordenada := mem_sortLeaves.mpr hfolha
  have hidx := List.idxOf_lt_length_of_mem hordenada
  have hcaminho : caminhoServido cr bc.state endereco conta = cr.merklePath (sortLeaves folhas)
      ((sortLeaves folhas).idxOf (cr.eavHash (conteudo "acct" endereco canonico))) := by
    unfold caminhoServido
    rw [halvo, hfolhas]
  rw [hcaminho]
  refine ⟨?_, canonico, hcanonico, ?_⟩
  · unfold Api.provaDaConta
    rw [halvo, hfolhas]
    dsimp only
    have hprimeiro : (sortLeaves folhas).idxOf? (cr.eavHash (conteudo "acct" endereco canonico)) =
        some ((sortLeaves folhas).idxOf (cr.eavHash (conteudo "acct" endereco canonico))) :=
      List.idxOf?_eq_some_iff.mpr ⟨hidx, List.getElem_idxOf hidx, fun j hj => by
        simpa using List.not_of_lt_findIdx hj⟩
    rw [hprimeiro]
  · rw [← hcalculada]
    exact caminha_merklePath (folhas_ne_nil hfolhas)
      ((List.getElem?_eq_getElem hidx).trans (congrArg some (List.getElem_idxOf hidx)))

/-- What the client makes of a reply. -/
theorem saldoProvado_corpoDaProva {caminho : List PathStep} {confiavel : Option String}
    (h : confiavel ∈ [none, some raiz]) :
    Cliente.saldoProvado cr (200, Api.corpoDaProva bc raiz rota conta caminho) endereco confiavel =
      if cr.verifyAccountProof raiz endereco conta.semGb.toValue caminho = false then
        .error (.provaInvalida s!"o caminho não leva à raiz para {endereco}")
      else .ok (Cliente.saldoDe conta.semGb.toValue) := by
  have hconfiavel : confiavel.any (· != raiz) = false := by
    rcases List.mem_pair.mp h with rfl | rfl <;> simp
  have hconta := contaCanonica_encodedAccount conta
  have hcaminho := caminhoDe_passoJson caminho
  have hcorpo : Cliente.saldoProvado cr
      (200, Api.corpoDaProva bc raiz rota conta caminho) endereco confiavel = (do
        if confiavel.any (· != raiz) then
          .error (.provaInvalida (s!"o nó afirma a raiz {raiz}, esperada " ++ confiavel.getD ""))
        let conta ← Cliente.contaCanonica (Api.encodedAccount conta)
        let caminho ← Cliente.caminhoDe (some (.list (caminho.map Api.passoJson)))
        if cr.verifyAccountProof raiz endereco conta caminho = false then
          .error (.provaInvalida s!"o caminho não leva à raiz para {endereco}")
        return Cliente.saldoDe conta) := rfl
  rw [hcorpo, hconta, hcaminho, hconfiavel]
  cases hv : cr.verifyAccountProof raiz endereco conta.semGb.toValue caminho with
  | false => simp [bind, Except.bind, hv]
  | true => simp [bind, Except.bind, hv, pure, Except.pure]

/-- The client verifies the reply for an account and reads its balance. -/
structure Conferida (cr : Cripto) (bc : Blockchain) (raiz endereco : String) (acc : Account) :
    Prop where
  prova : ∃ corpo codificada conta caminho, Api.proof cr bc endereco = (200, corpo) ∧
    corpo.campo "encodedAccount" = some codificada ∧
    Cliente.contaCanonica codificada = .ok conta ∧
    Cliente.caminhoDe (corpo.campo "path") = .ok caminho ∧
    cr.verifyAccountProof raiz endereco conta caminho = true
  saldo : ∀ confiavel ∈ [none, some raiz],
    Cliente.saldoProvado cr (Api.proof cr bc endereco) endereco confiavel = .ok acc.balance

/-- What is hashed on a walk from an account. -/
def pisadas (cr : Cripto) (endereco : String) (conta : Value) (caminho : List PathStep) :
    Set Bytes :=
  {y | ∃ canonico, conta.encode = .ok canonico ∧
    y ∈ conteudo "acct" endereco canonico ::
      preimagens cr.noDe parDe (cr.eavHash (conteudo "acct" endereco canonico)) caminho}

/-- What is hashed from the account that a route names, as the node holds it and as the
client reads it. -/
def Pisadas (cr : Cripto) (s : State) (endereco : String) : Set Bytes :=
  {y | ∃ rota conta, cr.enderecoDaRota endereco = some rota ∧
    s.accounts.get? rota = some conta ∧
      (y ∈ pisadas cr rota conta.toValue (caminhoServido cr s rota conta) ∨
        y ∈ pisadas cr endereco conta.semGb.toValue (caminhoServido cr s rota conta))}

theorem conteudo_inj {chave chave' : String} {bs bs' : Bytes}
    (h : conteudo "acct" chave bs = conteudo "acct" chave' bs') :
    bytesDe chave ++ 0x1f :: bs = bytesDe chave' ++ 0x1f :: bs' := by
  unfold conteudo at h
  rw [List.append_assoc, List.append_assoc] at h
  exact (List.cons.inj (List.append_cancel_left h)).2

/-- An address that is valid is not one of the virtual machine. -/
theorem enderecoDaRota_valido (h : cr.isValidAddress endereco = true) :
    cr.enderecoDaRota endereco = some endereco := by
  have hnativo : isEavmAddress endereco = false := by
    unfold isEavmAddress
    split
    · rename_i resto hlista
      unfold Cripto.isValidAddress at h
      rw [hlista] at h
      cases h
    · rfl
  unfold Cripto.enderecoDaRota Cripto.eavmToE7
  rw [hnativo, if_neg (by decide)]
  exact if_pos h

/-- A route names a valid address itself, or the native one behind an address of the
virtual machine. -/
theorem rota_cases (h : cr.enderecoDaRota endereco = some rota) :
    cr.isValidAddress endereco = true ∧ rota = endereco ∨
      ∀ bs bs', bytesDe rota ++ bs ≠ bytesDe endereco ++ bs' := by
  unfold Cripto.enderecoDaRota Cripto.eavmToE7 at h
  by_cases hv : isEavmAddress endereco = true
  · rw [if_pos hv] at h
    obtain rfl := Option.some.inj h
    right
    intro bs bs' heq
    have hzero : (bytesDe endereco).head? = some 0x30 := by
      unfold isEavmAddress at hv
      split at hv
      · rename_i resto hlista
        rw [bytesDe_eq, hlista]
        rfl
      · cases hv
    have hletra : (bytesDe (cr.deriveAddressFrom
        (bytesDe s!"EAV7-EAVM:{minusculas endereco}"))).head? = some 0x45 := by
      rw [bytesDe_eq]
      unfold Cripto.deriveAddressFrom
      rw [String.toList_append, String.toList_append]
      rfl
    obtain ⟨resto, hresto⟩ := List.head?_eq_some_iff.mp hletra
    obtain ⟨resto', hresto'⟩ := List.head?_eq_some_iff.mp hzero
    rw [hresto, hresto'] at heq
    exact absurd (List.cons.inj heq).1 (by decide)
  · rw [if_neg hv] at h
    left
    dsimp only at h
    split_ifs at h with hvalido
    exact ⟨hvalido, (Option.some.inj h).symm⟩

theorem proof_eq (hcabeca : bc.head.bind (·.stateRoot) = some raiz)
    (hrota : cr.enderecoDaRota endereco = some rota)
    (hconta : bc.state.accounts.get? rota = some conta) :
    Api.proof cr bc endereco = Api.provaDaConta cr bc raiz rota conta := by
  unfold Api.proof
  rw [hrota, hcabeca]
  dsimp only
  rw [hconta]

/-- What a client checks is the account without its GB counters, under the address that
was asked for. -/
theorem Conferida.verifica {acc : Account} (h : Conferida cr bc raiz endereco acc)
    (hraiz : cr.stateRootOf bc.state = .ok raiz)
    (hcabeca : bc.head.bind (·.stateRoot) = some raiz) :
    ∃ rota conta, cr.enderecoDaRota endereco = some rota ∧
      bc.state.accounts.get? rota = some conta ∧
      cr.verifyAccountProof raiz endereco conta.semGb.toValue
        (caminhoServido cr bc.state rota conta) = true := by
  obtain ⟨corpo, codificada, lida, caminho, hcorpo, hcodificada, hlida, hcaminho, hverifica⟩ :=
    h.prova
  obtain ⟨rota, conta, hrota, hconta⟩ : ∃ rota conta, cr.enderecoDaRota endereco = some rota ∧
      bc.state.accounts.get? rota = some conta := by
    unfold Api.proof at hcorpo
    cases hrota : cr.enderecoDaRota endereco with
    | none =>
      rw [hrota] at hcorpo
      cases hcorpo
    | some rota =>
      rw [hrota, hcabeca] at hcorpo
      dsimp only at hcorpo
      cases hconta : bc.state.accounts.get? rota with
      | none =>
        rw [hconta] at hcorpo
        cases hcorpo
      | some conta => exact ⟨rota, conta, rfl, hconta⟩
  rw [proof_eq hcabeca hrota hconta, (provaDaConta_eq hraiz hconta).1] at hcorpo
  obtain rfl : Api.corpoDaProva bc raiz rota conta (caminhoServido cr bc.state rota conta) = corpo :=
    (Prod.mk.inj hcorpo).2
  obtain rfl : Api.encodedAccount conta = codificada := Option.some.inj hcodificada
  obtain rfl : conta.semGb.toValue = lida :=
    Except.ok.inj ((contaCanonica_encodedAccount conta).symm.trans hlida)
  obtain rfl : caminhoServido cr bc.state rota conta = caminho :=
    Except.ok.inj ((caminhoDe_passoJson _).symm.trans hcaminho)
  exact ⟨rota, conta, hrota, hconta, hverifica⟩

/-- What the client verifies is the whole account, under its own address. -/
theorem Conferida.sem_gb {acc : Account} (h : Conferida cr bc raiz endereco acc) (hd : cr.Digere)
    (hraiz : cr.stateRootOf bc.state = .ok raiz)
    (hcabeca : bc.head.bind (·.stateRoot) = some raiz)
    (hacc : bc.state.accounts.get? endereco = some acc)
    (hT : Set.InjOn cr.eavHash (Pisadas cr bc.state endereco)) :
    cr.isValidAddress endereco = true ∧ acc.gbUsed = 0 ∧ acc.gbBlock = 0 := by
  obtain ⟨rota, conta, hrota, hconta, hverifica⟩ := h.verifica hraiz hcabeca
  obtain ⟨-, canonico, hcanonico, hfim⟩ := provaDaConta_eq hraiz hconta
  obtain ⟨lido, hlido⟩ : ∃ lido, conta.semGb.toValue.encode = .ok lido := by
    unfold Cripto.verifyAccountProof at hverifica
    split at hverifica
    · rename_i folha hfolha
      obtain ⟨lido, hlido, -⟩ := leaf_eq_ok.mp hfolha
      exact ⟨lido, hlido⟩
    · cases hverifica
  have hfim' := (verifyAccountProof_iff hlido).mp hverifica
  have hno : ∀ y ∈ conteudo "acct" rota canonico :: preimagens cr.noDe parDe
      (cr.eavHash (conteudo "acct" rota canonico)) (caminhoServido cr bc.state rota conta),
      y ∈ Pisadas cr bc.state endereco := fun y hy =>
    ⟨rota, conta, hrota, hconta, .inl ⟨canonico, hcanonico, hy⟩⟩
  have hcliente : ∀ y ∈ conteudo "acct" endereco lido :: preimagens cr.noDe parDe
      (cr.eavHash (conteudo "acct" endereco lido)) (caminhoServido cr bc.state rota conta),
      y ∈ Pisadas cr bc.state endereco := fun y hy =>
    ⟨rota, conta, hrota, hconta, .inr ⟨lido, hlido, hy⟩⟩
  have hdigestos := caminha_inj alinha_parDe (digesto_eavHash hd) hT (digesto_eavHash hd _)
    (digesto_eavHash hd _) (fun y hy => hno y (List.mem_cons_of_mem _ hy))
    (fun y hy => hcliente y (List.mem_cons_of_mem _ hy)) (hfim.trans hfim'.symm)
  have higuais := conteudo_inj (hT (hno _ List.mem_cons_self) (hcliente _ List.mem_cons_self)
    hdigestos)
  rcases rota_cases hrota with ⟨hvalido, rfl⟩ | hoposta
  · obtain rfl : acc = conta := Option.some.inj (hacc.symm.trans hconta)
    obtain rfl : canonico = lido := (List.cons.inj (List.append_cancel_left higuais)).2
    exact ⟨hvalido, Account.toValue_eq_semGb.mp (Value.encode_injective hlido hcanonico)⟩
  · exact absurd higuais (hoposta _ _)

/-- The client verifies the reply for an account exactly when its address is a native
one and the counters of the GB track are zero. -/
theorem conferida_iff (hd : cr.Digere) (hraiz : cr.stateRootOf bc.state = .ok raiz)
    (hcabeca : bc.head.bind (·.stateRoot) = some raiz) {acc : Account}
    (hacc : bc.state.accounts.get? endereco = some acc) (hsaldo : acc.balance < u128Limit)
    (hT : Set.InjOn cr.eavHash (Pisadas cr bc.state endereco)) :
    Conferida cr bc raiz endereco acc ↔
      cr.isValidAddress endereco = true ∧ acc.gbUsed = 0 ∧ acc.gbBlock = 0 := by
  constructor
  · exact fun h => h.sem_gb hd hraiz hcabeca hacc hT
  · rintro ⟨hvalido, hgb⟩
    have hrota := enderecoDaRota_valido hvalido
    obtain ⟨hservida, canonico, hcanonico, hfim⟩ := provaDaConta_eq hraiz hacc
    have hresposta := (proof_eq hcabeca hrota hacc).trans hservida
    have hmesma := Account.toValue_eq_semGb.mpr hgb
    have hverifica : cr.verifyAccountProof raiz endereco acc.semGb.toValue
        (caminhoServido cr bc.state endereco acc) = true := by
      rw [hmesma]
      exact (verifyAccountProof_iff hcanonico).mpr hfim
    refine ⟨⟨_, _, _, _, hresposta, rfl, contaCanonica_encodedAccount acc, caminhoDe_passoJson _,
      hverifica⟩, fun confiavel hconfiavel => ?_⟩
    rw [hresposta, saldoProvado_corpoDaProva hconfiavel, hverifica, if_neg (by decide), hmesma,
      Account.saldoDe_toValue hsaldo]

end Honesta

/-! ## An account after its first transaction -/

namespace Blockchain

/-- A block of one transaction. -/
theorem simulate_um {amb : Ambiente} {c : Blockchain} {b : Block} {tx : Tx} {blockTs : ℕ}
    {s u v t : State} {aplicada : AppliedTx} (htxs : b.transactions = [tx])
    (habre : abreBloco b s = .ok blockTs u) (hv : amb.verifyTransaction tx = .ok ())
    (hnova : c.txIndex.contains (tx.id.getD "?") = false)
    (haplica : applyTransaction amb tx b.height blockTs u = .ok aplicada v)
    (hfecha : fechaBloco b v = .ok () t) :
    c.simulate amb b s = .ok (reciboDaTx tx aplicada ++ []) t := by
  have hconf : c.conferirTx amb tx [] = .ok () := by
    unfold conferirTx
    rw [hv]
    refine except_bind_eq_ok.mpr ⟨(), rfl, recusar_eq_ok.mpr ?_⟩
    rintro (h | h)
    · cases h
    · rw [hnova] at h
      cases h
  unfold simulate
  refine bind_eq_ok.mpr ⟨_, _, habre, ?_⟩
  rw [htxs]
  refine bind_eq_ok.mpr ⟨_, v, ?_, bind_eq_ok.mpr ⟨(), t, hfecha, rfl⟩⟩
  unfold simulateTxs
  refine bind_eq_ok.mpr ⟨(), u, lift_eq_ok.mpr ⟨hconf, rfl⟩, ?_⟩
  exact bind_eq_ok.mpr ⟨aplicada, v, haplica, bind_eq_ok.mpr ⟨[], v, rfl, rfl⟩⟩

def camposComissao : Tx :=
  { txType := "SET_COMMISSION", de := "", nonce := 1, timestamp := 1, fee := "0"
    data := some (.map [("percent", .int 10)]) }

/-- The first transaction of account A. -/
def comissaoDeA : Tx := camposComissao.assinada criptoIdeal (chaveIdeal 0) enderecoA

/-- What a simulation reads of the block that account A makes of it. -/
def blocoDaComissao : Block :=
  { height := 1, timestamp := inicioDoSlot 3, previousHash := hashGeneseTrio, txRoot := ""
    txCount := 1, producer := enderecoA, signature := "", pqSignature := "", hash := ""
    transactions := [comissaoDeA] }

def estadoAberto : State := fim (abreBloco blocoDaComissao) estadoTrio

/-- The GB quota of account A after the transaction. -/
def cotaDaComissao : Peek := ⟨0, 1024⟩

def estadoPago : State :=
  depoisDe (fim (manipulador ambienteIdeal comissaoDeA ⟨1, 3000, 0⟩ .setCommission) estadoAberto)
    comissaoDeA 1 1 cotaDaComissao 0

def estadoComissao : State := fim (fechaBloco blocoDaComissao) estadoPago

/-- The transaction and the end of its block go through, and account A then has a GB track. -/
instance comissao_pronta : Fact (pronta ambienteIdeal (chaveIdeal 0) enderecoA camposComissao
      .setCommission estadoAberto 1 3000 1 cotaDaComissao 0 = true ∧
    conclui (fechaBloco blocoDaComissao) estadoPago = true ∧
    (estadoComissao.accounts.get? enderecoA).isSome = true ∧
    (estadoComissao.accounts.getD enderecoA {}).gbBlock = 1 ∧
    (estadoComissao.accounts.getD enderecoA {}).balance < u128Limit) where
  out := by
    unfold estadoComissao estadoPago
    rw [ambienteIdeal_eq]
    decide +kernel

theorem simulate_comissao : ∃ recibos, cadeiaTrio.simulate ambienteIdeal
    (esboco ambienteIdeal (assinanteDe (chaveIdeal 0)) enderecoA geneseTrio [comissaoDeA]
      (inicioDoSlot 3) none) estadoTrio = .ok recibos estadoComissao := by
  obtain ⟨hpronta, hfecha, -⟩ := comissao_pronta.out
  have haceita := aceita_de_pronta (trio_capaz _ List.mem_cons_self) digere_ideal hpronta
  obtain ⟨⟨⟩, hfecha⟩ := conclui_iff.mp hfecha
  cases haceita with
  | transacao hv haplica =>
    have hum := simulate_um (c := cadeiaTrio) (b := blocoDaComissao) (s := estadoTrio) rfl rfl hv rfl
      haplica hfecha
    have hmesmo : cadeiaTrio.simulate ambienteIdeal (esboco ambienteIdeal
        (assinanteDe (chaveIdeal 0)) enderecoA geneseTrio [comissaoDeA] (inicioDoSlot 3) none) =
        cadeiaTrio.simulate ambienteIdeal blocoDaComissao := by
      refine simulate_mesmo ⟨?_, ?_, ?_, ?_⟩ ?_
      · rfl
      · rfl
      · exact hash_geneseTrio.out
      · rfl
      · unfold Block.validator esboco blocoDaComissao
        rfl
    exact ⟨_, (congrFun hmesmo estadoTrio).trans hum⟩

def contaA : Account := estadoComissao.accounts.getD enderecoA {}

/-- What is hashed on the way from a value of account A to the root. -/
def subidaDeA (bs : Bytes) : List Bytes :=
  conteudo "acct" enderecoA bs :: preimagens criptoIdeal.noDe parDe
    (criptoIdeal.eavHash (conteudo "acct" enderecoA bs))
    (caminhoServido criptoIdeal estadoComissao enderecoA contaA)

def pisadasDeA : List Bytes :=
  match criptoIdeal.stateLeaves estadoComissao, contaA.toValue.encode,
      contaA.semGb.toValue.encode with
  | .ok _, .ok canonico, .ok lido => subidaDeA canonico ++ subidaDeA lido
  | _, _, _ => []

instance pisadasDeA_distintas : Fact
    (pisadasDeA ≠ [] ∧ (pisadasDeA.map criptoIdeal.sha3).Nodup) where
  out := by
    unfold pisadasDeA subidaDeA Cripto.stateLeaves
    simp only [preimagens_servidas, Cripto.folhas_eq_resumos, criptoIdeal_eq]
    decide +kernel

theorem conta_da_comissao : estadoComissao.accounts.get? enderecoA = some contaA ∧
    contaA.gbBlock = 1 ∧ contaA.balance < u128Limit ∧
      criptoIdeal.isValidAddress enderecoA = true := by
  have hconta : (estadoComissao.accounts.get? enderecoA).isSome = true ∧ contaA.gbBlock = 1 ∧
      contaA.balance < u128Limit := comissao_pronta.out.2.2
  have hvalido := (trio_capaz (produtorDe (chaveIdeal 0) enderecoA) List.mem_cons_self).valido
    digere_ideal
  obtain ⟨acc, hacc⟩ := Option.isSome_iff_exists.mp hconta.1
  have hmesma : contaA = acc := by
    unfold contaA OrdMap.getD
    rw [hacc, Option.getD_some]
  exact ⟨hmesma ▸ hacc, hconta.2.1, hconta.2.2, hvalido⟩

/-- The chain of the trio after the block of account A. -/
theorem cadeia_da_comissao : ∃ c vistos raiz, Corrida ambienteIdeal vistos c ∧
    c.state = estadoComissao ∧ criptoIdeal.stateRootOf c.state = .ok raiz ∧
    c.head.bind (·.stateRoot) = some raiz := by
  obtain ⟨recibos, hsim⟩ := simulate_comissao
  obtain ⟨raiz, hraiz⟩ : ∃ raiz, criptoIdeal.stateRootOf estadoComissao = .ok raiz := by
    unfold Cripto.stateRootOf
    cases hfolhas : criptoIdeal.stateLeaves estadoComissao with
    | ok folhas => exact ⟨_, rfl⟩
    | error e =>
      refine absurd ?_ pisadasDeA_distintas.out.1
      unfold pisadasDeA
      rw [hfolhas]
  obtain ⟨b, hprod, hroot, -⟩ := (pronta_trio.apta (by decide)).produz pronta_trio.semDisco
    digere_ideal 3 (u := geneseTrio) rfl (trio_capaz _ List.mem_cons_self) List.mem_cons_self
    rfl (by decide) (by decide) (le_refl (10 ^ 9 : ℤ)) (by decide) (by decide) hsim hraiz
  have hadds : addBlocks ambienteIdeal (10 ^ 9) [b] cadeiaTrio = .ok () _ :=
    bind_eq_ok.mpr ⟨(), _, addBlock_of_produceBlock hprod, rfl⟩
  refine ⟨_, _, raiz, corrida_trio.addBlocks hadds, rfl, hraiz, ?_⟩
  rw [aceitar_head]
  exact hroot

theorem injOn_pisadasDeA {c : Blockchain} (hc : c.state = estadoComissao) :
    Set.InjOn criptoIdeal.eavHash (Pisadas criptoIdeal c.state enderecoA) := by
  obtain ⟨hconta, -, -, hvalido⟩ := conta_da_comissao
  have hsub : Pisadas criptoIdeal c.state enderecoA ⊆ {y | y ∈ pisadasDeA} := by
    rintro y ⟨rota, conta, hrota, hlida, hy⟩
    obtain rfl : enderecoA = rota :=
      Option.some.inj ((enderecoDaRota_valido hvalido).symm.trans hrota)
    rw [hc] at hlida hy
    obtain rfl : contaA = conta := Option.some.inj (hconta.symm.trans hlida)
    have hcheia := pisadasDeA_distintas.out.1
    change y ∈ pisadasDeA
    revert hcheia
    unfold pisadasDeA
    split
    · rename_i canonico lido _ hcanonico hlido
      intro _
      refine List.mem_append.mpr (hy.imp ?_ ?_)
      · rintro ⟨bs, hbs, hy⟩
        obtain rfl := Except.ok.inj (hcanonico.symm.trans hbs)
        exact hy
      · rintro ⟨bs, hbs, hy⟩
        obtain rfl := Except.ok.inj (hlido.symm.trans hbs)
        exact hy
    · exact fun h => absurd rfl h
  exact Set.InjOn.mono hsub (Cripto.injOn_eavHash pisadasDeA_distintas.out.2)

/-- The reply for an account that used the GB track fails at the client. -/
theorem conta_com_gb_nao_confere : ¬ ∀ (amb : Ambiente) (vistos : List Block) (c : Blockchain)
    (raiz endereco : String) (acc : Account), Corrida amb vistos c →
      amb.cripto.stateRootOf c.state = .ok raiz → c.head.bind (·.stateRoot) = some raiz →
      c.state.accounts.get? endereco = some acc → Conferida amb.cripto c raiz endereco acc := by
  intro h
  obtain ⟨c, vistos, raiz, hcorrida, hestado, hraiz, hcabeca⟩ := cadeia_da_comissao
  obtain ⟨hconta, hgb, -, -⟩ := conta_da_comissao
  rw [← hestado] at hconta
  have hconferida := h ambienteIdeal vistos c raiz enderecoA contaA hcorrida hraiz hcabeca hconta
  have hzero := hconferida.sem_gb digere_ideal hraiz hcabeca hconta (injOn_pisadasDeA hestado)
  exact absurd (hgb.symm.trans hzero.2.2) (by decide)

/-- Account A, after its first transaction, is not verified at its own root. -/
theorem conferida_da_comissao : ∃ c raiz, c.state.accounts.get? enderecoA = some contaA ∧
    criptoIdeal.stateRootOf c.state = .ok raiz ∧
      ¬ Conferida criptoIdeal c raiz enderecoA contaA := by
  obtain ⟨c, vistos, raiz, -, hestado, hraiz, hcabeca⟩ := cadeia_da_comissao
  obtain ⟨hconta, hgb, hsaldo, -⟩ := conta_da_comissao
  rw [← hestado] at hconta
  refine ⟨c, raiz, hconta, hraiz, fun h => ?_⟩
  have hzero := (conferida_iff digere_ideal hraiz hcabeca hconta hsaldo
    (injOn_pisadasDeA hestado)).mp h
  exact absurd (hgb.symm.trans hzero.2.2) (by decide)

end Blockchain

end Eav7
