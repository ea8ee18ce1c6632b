import Eav7.Base.Merkle
import Eav7.Canonica
import Eav7.Roteiro

/-!
# Proofs of accounts

An account is proved against a state root by the path of its leaf. The tree hashes a
leaf and an inner node in the same way, so the text that a leaf ends with can be taken
for a digest: a proof is sound as long as no leaf ends with the digest of an account
that the state does not hold.
-/

namespace Eav7

open Base Base.Merkle

abbrev PathStep := Merkle.Passo String

structure ProvaDeConta where
  endereco : String
  folha : String
  caminho : List PathStep

/-- In the order of the characters, which for digests is that of the bytes. -/
def sortLeaves (folhas : List String) : List String := folhas.insertionSort (· ≤ ·)

/-- The digest beside an index; the last one of an odd level stands beside itself. -/
def irmaoDe (nivel : List String) (i : ℕ) : String :=
  if i % 2 = 0 then nivel.getD (i + 1) (nivel.getD i "") else nivel.getD (i - 1) ""

namespace Cripto

variable (cr : Cripto)

def merkleCaminho : ℕ → List String → ℕ → List PathStep
  | 0, _, _ => []
  | fuel + 1, nivel, i =>
    if nivel.length ≤ 1 then []
    else ⟨irmaoDe nivel i, i % 2 == 0⟩ :: merkleCaminho fuel (cr.merkleNivel nivel) (i / 2)

def merklePath (folhas : List String) (indice : ℕ) : List PathStep :=
  if folhas.length ≤ indice then [] else cr.merkleCaminho folhas.length folhas indice

def sobePasso (h : String) (passo : PathStep) : String :=
  if passo.right then cr.eavHash (bytesDe h ++ bytesDe passo.hash)
  else cr.eavHash (bytesDe passo.hash ++ bytesDe h)

def verifyStateProof (raiz folha : String) (caminho : List PathStep) : Bool :=
  caminho.foldl cr.sobePasso folha == raiz

def accountLeaf (endereco : String) (conta : Value) : Falha String :=
  cr.leaf ("acct", endereco, conta)

def accountProof (endereco : String) (conta : Value) (todasAsFolhas : List String) :
    Falha (Option ProvaDeConta) := do
  let alvo ← cr.accountLeaf endereco conta
  let folhas := sortLeaves todasAsFolhas
  return (folhas.idxOf? alvo).map fun indice =>
    { endereco := endereco, folha := alvo, caminho := cr.merklePath folhas indice }

def verifyAccountProof (raiz endereco : String) (conta : Value) (caminho : List PathStep) : Bool :=
  match cr.accountLeaf endereco conta with
  | .ok folha => cr.verifyStateProof raiz folha caminho
  | .error _ => false

end Cripto

/-! ## The tree of the digests -/

/-- The bytes that an inner node hashes. -/
def parDe (a b : String) : Bytes := bytesDe a ++ bytesDe b

section Arvore

variable (cr : Cripto)

abbrev Cripto.noDe : String → String → String := Merkle.noDe cr.eavHash parDe

variable {cr}

theorem merkleNivel_eq (l : List String) : cr.merkleNivel l = nivel cr.noDe l := by
  induction l using pares.induct with
  | case1 => rfl
  | case2 a => rfl
  | case3 a b resto ih => exact congrArg _ ih

theorem sobePasso_eq : cr.sobePasso = sobe cr.noDe := rfl

/-! ### The same tree in bytes -/

/-- The bytes that an inner node hashes, from the digests below it. -/
def parDeResumos (a b : Bytes) : Bytes := hexOctetos a ++ hexOctetos b

theorem parDe_hexEncode (a b : Bytes) : parDe (hexEncode a) (hexEncode b) = parDeResumos a b :=
  congrArg₂ (· ++ ·) (bytesDe_hexEncode a) (bytesDe_hexEncode b)

theorem noDe_hexEncode (a b : Bytes) :
    cr.noDe (hexEncode a) (hexEncode b) = hexEncode (cr.noDeResumos a b) :=
  cr.eavHash_noDeResumos a b

def irmaoDosResumos (nivel : List Bytes) (i : ℕ) : Bytes :=
  if i % 2 = 0 then nivel.getD (i + 1) (nivel.getD i []) else nivel.getD (i - 1) []

def Cripto.caminhoDosResumos (cr : Cripto) : ℕ → List Bytes → ℕ → List (Merkle.Passo Bytes)
  | 0, _, _ => []
  | fuel + 1, nivel, i =>
    if nivel.length ≤ 1 then []
    else ⟨irmaoDosResumos nivel i, i % 2 == 0⟩ ::
      caminhoDosResumos cr fuel (cr.nivelDeResumos nivel) (i / 2)

theorem irmaoDe_map (ds : List Bytes) (i : ℕ) :
    irmaoDe (ds.map hexEncode) i = hexEncode (irmaoDosResumos ds i) := by
  have hvazio : hexEncode [] = "" := rfl
  unfold irmaoDe irmaoDosResumos
  rw [← hvazio, List.getD_map, List.getD_map, List.getD_map]
  split_ifs <;> rfl

theorem merkleCaminho_map (n : ℕ) (ds : List Bytes) (i : ℕ) :
    cr.merkleCaminho n (ds.map hexEncode) i =
      (cr.caminhoDosResumos n ds i).map (Passo.map hexEncode) := by
  induction n generalizing ds i with
  | zero => rfl
  | succ n ih =>
    rw [Cripto.merkleCaminho, Cripto.caminhoDosResumos, List.length_map, irmaoDe_map,
      cr.merkleNivel_map, ih]
    split_ifs <;> rfl

theorem raiz_merkleSobe {n : ℕ} {l : List String} (hl : l ≠ []) (hn : l.length ≤ n) :
    Raiz cr.noDe l (cr.merkleSobe n l) := by
  induction n generalizing l with
  | zero => exact absurd (List.eq_nil_of_length_eq_zero (Nat.le_zero.mp hn)) hl
  | succ n ih =>
    match l with
    | [] => exact absurd rfl hl
    | [r] => exact .folha r
    | a :: b :: resto =>
      have hnivel : (nivel cr.noDe (a :: b :: resto)).length ≤ n := by
        rw [length_nivel]
        simp only [List.length_cons] at hn ⊢
        omega
      change Raiz cr.noDe _ (cr.merkleSobe n (cr.merkleNivel (a :: b :: resto)))
      rw [merkleNivel_eq]
      exact .sobe (by simp) (ih (by simp [nivel, pares]) hnivel)

theorem merkleCaminho_eq {n : ℕ} {l : List String} {i : ℕ} (hi : i < l.length) :
    cr.merkleCaminho n l i = caminhoDe cr.noDe n l i := by
  induction n generalizing l i with
  | zero => rfl
  | succ n ih =>
    rw [Cripto.merkleCaminho, caminhoDe]
    split_ifs with hum
    · rfl
    · obtain ⟨b, hb, -⟩ := @nivel_getElem? _ cr.noDe _ _ _ (List.getElem?_eq_getElem hi)
      have hirmao : irmaoDe l i = b := by
        unfold irmao at hb
        unfold irmaoDe
        simp only [List.getD_eq_getElem?_getD]
        split_ifs at hb ⊢
        · cases h : l[i + 1]? <;> simp_all
        · simp [hb]
      rw [hb, hirmao, merkleNivel_eq, ih]
      rw [length_nivel]
      omega

theorem raiz_computeStateRoot {folhas : List String} (h : folhas ≠ []) :
    Raiz cr.noDe (sortLeaves folhas) (cr.computeStateRoot folhas) := by
  have hsort : sortLeaves folhas ≠ [] := by
    intro hvazia
    have hperm := List.perm_insertionSort (· ≤ ·) folhas
    exact h (List.Perm.nil_eq (hvazia ▸ hperm)).symm
  have hraiz : cr.computeStateRoot folhas =
      cr.merkleSobe (sortLeaves folhas).length (sortLeaves folhas) := if_neg hsort
  rw [hraiz]
  exact raiz_merkleSobe hsort le_rfl

theorem merklePath_eq {folhas : List String} {i : ℕ} {a : String} (h : folhas[i]? = some a) :
    cr.merklePath folhas i = caminhoDe cr.noDe folhas.length folhas i := by
  have hi := (List.getElem?_eq_some_iff.mp h).1
  unfold Cripto.merklePath
  rw [if_neg (not_le.mpr hi), merkleCaminho_eq hi]

/-- The path of a leaf leads to the root. -/
theorem caminha_merklePath {folhas : List String} (hfolhas : folhas ≠ []) {i : ℕ} {a : String}
    (h : (sortLeaves folhas)[i]? = some a) :
    caminha cr.noDe a (cr.merklePath (sortLeaves folhas) i) = cr.computeStateRoot folhas := by
  rw [merklePath_eq h]
  exact (raiz_computeStateRoot hfolhas).caminha_caminhoDe (Nat.le_succ _) h

/-- Only pairs of the tree are hashed on the path of a leaf. -/
theorem preimagens_merklePath {folhas : List String} (hfolhas : folhas ≠ []) {i : ℕ} {a : String}
    (h : (sortLeaves folhas)[i]? = some a) {y : Bytes}
    (hy : y ∈ preimagens cr.noDe parDe a (cr.merklePath (sortLeaves folhas) i)) :
    ∃ p, Par cr.noDe (sortLeaves folhas) p ∧ y = parDe p.1 p.2 := by
  rw [merklePath_eq h] at hy
  obtain ⟨qs, p, rs, hcaminho, rfl⟩ := mem_preimagens hy
  refine ⟨_, (raiz_computeStateRoot hfolhas).par_of_mem_caminhoDe h hcaminho, ?_⟩
  split_ifs <;> rfl

end Arvore

/-! ## The leaves of a state -/

/-- The bytes that a leaf hashes. -/
def conteudo (dominio chave : String) (canonico : Bytes) : Bytes :=
  bytesDe dominio ++ 0x1f :: bytesDe chave ++ 0x1f :: canonico

section Folhas

variable {cr : Cripto} {s : State}

theorem leaf_eq_ok {e : Registro} {folha : String} : cr.leaf e = .ok folha ↔
    ∃ canonico, e.2.2.encode = .ok canonico ∧ folha = cr.eavHash (conteudo e.1 e.2.1 canonico) := by
  constructor
  · intro h
    obtain ⟨canonico, hcanonico, h⟩ := except_bind_eq_ok.mp h
    exact ⟨canonico, hcanonico, (Except.ok.inj h).symm⟩
  · rintro ⟨canonico, hcanonico, rfl⟩
    exact except_bind_eq_ok.mpr ⟨canonico, hcanonico, rfl⟩

theorem mem_folhas {es : List Registro} {folhas : List String} (h : cr.folhas es = .ok folhas)
    {folha : String} : folha ∈ folhas ↔ ∃ e ∈ es, cr.leaf e = .ok folha := by
  induction es generalizing folhas with
  | nil =>
    cases h
    simp
  | cons e es ih =>
    obtain ⟨f, hf, h⟩ := except_bind_eq_ok.mp h
    obtain ⟨fs, hfs, h⟩ := except_bind_eq_ok.mp h
    cases h
    rw [List.mem_cons, ih hfs, List.exists_mem_cons_iff, hf]
    exact or_congr_left ⟨fun h => h ▸ rfl, fun h => (Except.ok.inj h).symm⟩

theorem leaf_of_folhas {es : List Registro} {folhas : List String}
    (h : cr.folhas es = .ok folhas) {e : Registro} (he : e ∈ es) :
    ∃ folha, cr.leaf e = .ok folha := by
  induction es generalizing folhas with
  | nil => cases he
  | cons x es ih =>
    obtain ⟨f, hf, h⟩ := except_bind_eq_ok.mp h
    obtain ⟨fs, hfs, -⟩ := except_bind_eq_ok.mp h
    rcases List.mem_cons.mp he with rfl | he
    · exact ⟨f, hf⟩
    · exact ih hfs he

theorem length_folhas {es : List Registro} {folhas : List String} (h : cr.folhas es = .ok folhas) :
    folhas.length = es.length := by
  induction es generalizing folhas with
  | nil =>
    cases h
    rfl
  | cons e es ih =>
    obtain ⟨f, -, h⟩ := except_bind_eq_ok.mp h
    obtain ⟨fs, hfs, h⟩ := except_bind_eq_ok.mp h
    cases h
    exact congrArg _ (ih hfs)

theorem folhas_ne_nil {folhas : List String} (h : cr.stateLeaves s = .ok folhas) : folhas ≠ [] := by
  rintro rfl
  have hlen := length_folhas h
  unfold State.enumerar at hlen
  simp at hlen

/-- The state holds an account with exactly this value. -/
def State.Contem (s : State) (endereco : String) (conta : Value) : Prop :=
  ∃ acc, s.accounts.get? endereco = some acc ∧ acc.toValue = conta

theorem filter_secao {ν : Type} (d d' : String) (f : ν → Value) (m : OrdMap String ν) :
    (secao d f m).filter (·.1 == d') = if d = d' then secao d f m else [] := by
  unfold secao
  rw [List.filter_map]
  split_ifs with h
  · simp [h, Function.comp_def]
  · simp [h, Function.comp_def]

theorem contas_enumerar (s : State) :
    s.enumerar.filter (·.1 == "acct") = secao "acct" Account.toValue s.accounts := by
  unfold State.enumerar
  simp [filter_secao]

theorem mem_enumerar_acct {endereco : String} {conta : Value} :
    ("acct", endereco, conta) ∈ s.enumerar ↔ s.Contem endereco conta := by
  have hfiltro : ("acct", endereco, conta) ∈ s.enumerar ↔
      ("acct", endereco, conta) ∈ s.enumerar.filter (·.1 == "acct") := by
    rw [List.mem_filter, and_iff_left (beq_self_eq_true _)]
  rw [hfiltro, contas_enumerar]
  unfold secao State.Contem
  constructor
  · intro h
    obtain ⟨⟨k, acc⟩, hmem, heq⟩ := List.mem_map.mp h
    cases heq
    exact ⟨acc, OrdMap.mem_entries_iff.mp hmem, rfl⟩
  · rintro ⟨acc, hacc, rfl⟩
    exact List.mem_map.mpr ⟨(endereco, acc), OrdMap.mem_entries_iff.mpr hacc, rfl⟩

theorem mem_sortLeaves {folhas : List String} {folha : String} :
    folha ∈ sortLeaves folhas ↔ folha ∈ folhas :=
  (List.perm_insertionSort _ _).mem_iff

theorem idxOf?_of_mem {α : Type} [DecidableEq α] {l : List α} {a : α} (h : a ∈ l) :
    ∃ i, l.idxOf? a = some i ∧ l[i]? = some a := by
  obtain ⟨i, hi⟩ := Option.isSome_iff_exists.mp (List.isSome_idxOf?.mpr h)
  obtain ⟨hlt, heq, -⟩ := List.idxOf?_eq_some_iff.mp hi
  exact ⟨i, hi, List.getElem?_eq_some_iff.mpr ⟨hlt, heq⟩⟩

/-- An account among the leaves has a proof, from whichever position its leaf is found at. -/
theorem accountProof_completa {es : List Registro} {folhas : List String} {endereco : String}
    {conta : Value} (hfolhas : cr.folhas es = .ok folhas) (h : ("acct", endereco, conta) ∈ es) :
    ∃ prova, cr.accountProof endereco conta folhas = .ok (some prova) ∧
      prova.endereco = endereco ∧ cr.accountLeaf endereco conta = .ok prova.folha ∧
      cr.verifyAccountProof (cr.computeStateRoot folhas) endereco conta prova.caminho = true ∧
      ∀ i, (sortLeaves folhas)[i]? = some prova.folha →
        cr.verifyAccountProof (cr.computeStateRoot folhas) endereco conta
          (cr.merklePath (sortLeaves folhas) i) = true := by
  obtain ⟨folha, hfolha, hmem⟩ : ∃ folha, cr.leaf ("acct", endereco, conta) = .ok folha ∧
      folha ∈ folhas := by
    obtain ⟨folha, hfolha⟩ := leaf_of_folhas hfolhas h
    exact ⟨folha, hfolha, (mem_folhas hfolhas).mpr ⟨_, h, hfolha⟩⟩
  have hvazia : folhas ≠ [] := List.ne_nil_of_mem hmem
  have hverifica : ∀ i, (sortLeaves folhas)[i]? = some folha →
      cr.verifyAccountProof (cr.computeStateRoot folhas) endereco conta
        (cr.merklePath (sortLeaves folhas) i) = true := by
    intro i hi
    have hsobe : caminha cr.noDe folha _ = _ := caminha_merklePath hvazia hi
    unfold Cripto.verifyAccountProof Cripto.accountLeaf
    rw [hfolha]
    exact beq_iff_eq.mpr hsobe
  obtain ⟨i, hidx, hi⟩ := idxOf?_of_mem (mem_sortLeaves.mpr hmem)
  have hprova : cr.accountProof endereco conta folhas =
      .ok (some ⟨endereco, folha, cr.merklePath (sortLeaves folhas) i⟩) := by
    unfold Cripto.accountProof Cripto.accountLeaf
    refine except_bind_eq_ok.mpr ⟨folha, hfolha, ?_⟩
    exact congrArg _ (congrArg _ hidx)
  exact ⟨_, hprova, rfl, hfolha, hverifica i hi, hverifica⟩

theorem folhas_de_tres : ∃ folhas prova,
    criptoIdeal.accountProof enderecoA .null folhas = .ok (some prova) ∧ folhas.length = 3 ∧
      criptoIdeal.verifyAccountProof (criptoIdeal.computeStateRoot folhas) enderecoA .null
        prova.caminho = true := by
  have hfolhas : criptoIdeal.folhas [("meta", "m", .null), ("acct", enderecoA, .null),
      ("acct", enderecoB, .null)] = .ok _ := rfl
  obtain ⟨prova, hprova, -, -, hverifica, -⟩ :=
    accountProof_completa hfolhas (List.mem_cons_of_mem _ List.mem_cons_self)
  exact ⟨_, prova, hprova, length_folhas hfolhas, hverifica⟩

end Folhas

/-! ## Digests -/

/-- The bytes of a digest: 64 of them, and no separator. -/
def Digesto (a : String) : Prop := (bytesDe a).length = 64 ∧ 0x1f ∉ bytesDe a

theorem digesto_of_isValidHash {a : String} (h : isValidHash a = true) : Digesto a := by
  obtain ⟨hlen, hhex⟩ := Bool.and_eq_true_iff.mp h
  have hum : ∀ c ∈ a.toList, ∃ b, b ≠ 0x1f ∧ String.utf8EncodeChar c = [b] := by
    intro c hc
    have hc := List.all_eq_true.mp hhex c hc
    simp only [Bool.or_eq_true, Bool.and_eq_true, decide_eq_true_eq, Char.le_def,
      UInt32.le_iff_toNat_le] at hc
    have hfaixa : 48 ≤ c.val.toNat ∧ c.val.toNat ≤ 102 := by
      rcases hc with ⟨h₁, h₂⟩ | ⟨h₁, h₂⟩
      · exact ⟨h₁, h₂.trans (by decide)⟩
      · exact ⟨le_trans (by decide) h₁, h₂⟩
    refine ⟨c.val.toUInt8, ?_, String.utf8EncodeChar_eq_singleton ?_⟩
    · intro heq
      have hnat := congrArg UInt8.toNat heq
      rw [UInt32.toNat_toUInt8] at hnat
      have : UInt8.toNat 0x1f = 31 := rfl
      omega
    · unfold Char.utf8Size
      rw [if_pos (UInt32.le_iff_toNat_le.mpr (hfaixa.2.trans (by decide)))]
  have hcorpo : ∀ cs : List Char, (∀ c ∈ cs, ∃ b, b ≠ 0x1f ∧ String.utf8EncodeChar c = [b]) →
      (cs.flatMap String.utf8EncodeChar).length = cs.length ∧
        0x1f ∉ cs.flatMap String.utf8EncodeChar := by
    intro cs hcs
    induction cs with
    | nil => exact ⟨rfl, List.not_mem_nil⟩
    | cons c cs ih =>
      obtain ⟨⟨b, hb, hc⟩, hresto⟩ := List.forall_mem_cons.mp hcs
      obtain ⟨ihlen, ihsep⟩ := ih hresto
      rw [List.flatMap_cons, hc, List.singleton_append]
      exact ⟨congrArg _ ihlen, List.not_mem_cons_of_ne_of_not_mem hb.symm ihsep⟩
  obtain ⟨hbytes, hsep⟩ := hcorpo a.toList hum
  unfold Digesto
  rw [bytesDe_eq]
  exact ⟨hbytes.trans (beq_iff_eq.mp hlen), hsep⟩

theorem digesto_eavHash {cr : Cripto} (hd : cr.Digere) (bs : Bytes) : Digesto (cr.eavHash bs) :=
  digesto_of_isValidHash (hd.eavHash bs)

theorem alinha_parDe : Alinha Digesto parDe where
  esquerda ha hb h := bytesDe_injective (List.append_inj_left h (ha.1.trans hb.1.symm))
  direita ha hb h := bytesDe_injective (List.append_inj_right' h (ha.1.trans hb.1.symm))

/-- The sections of the state. -/
def dominios : List String :=
  ["meta", "acct", "tok", "nft", "name", "ctr", "vote", "cvotes", "comm", "pcomm", "deleg", "racc",
    "rdebt", "gov", "treasury", "slash", "unbond", "perm", "pop", "pperm", "orc", "ai", "attest",
    "vest", "brg"]

theorem dominio_mem {s : State} {e : Registro} (h : e ∈ s.enumerar) : e.1 ∈ dominios := by
  have hsecao : ∀ {ν : Type} {d : String} {f : ν → Value} {m : OrdMap String ν}, d ∈ dominios →
      ∀ e ∈ secao d f m, e.1 ∈ dominios := by
    intro ν d f m hd e he
    obtain ⟨_, -, rfl⟩ := List.mem_map.mp he
    exact hd
  have hlista : ∀ e ∈ s.enumerar, e.1 ∈ dominios := by
    unfold State.enumerar
    simp only [List.forall_mem_append, List.forall_mem_cons]
    repeat' apply And.intro
    all_goals first
      | exact hsecao (by decide)
      | exact fun e he => absurd he List.not_mem_nil
      | decide
  exact hlista e h

theorem dominio_curto {s : State} {e : Registro} (h : e ∈ s.enumerar) :
    (bytesDe e.1).length < 64 := by
  have hcurto : ∀ d ∈ dominios, (bytesDe d).length < 64 := by decide +kernel
  exact hcurto e.1 (dominio_mem h)

/-- No digest followed by something is what a leaf hashes. -/
theorem conteudo_ne_parDe {dominio chave : String} {canonico : Bytes} {a b : String}
    (h : (bytesDe dominio).length < 64) (ha : Digesto a) :
    conteudo dominio chave canonico ≠ parDe a b := by
  intro heq
  have hsep : (conteudo dominio chave canonico)[(bytesDe dominio).length]? = some 0x1f := by
    unfold conteudo
    simp
  rw [heq, parDe, List.getElem?_append_left (ha.1.symm ▸ h)] at hsep
  exact ha.2 (List.mem_of_getElem? hsep)

/-! ## Sound proofs -/

section Seguranca

variable {cr : Cripto} {s : State} {T : Set Bytes}

/-- A walk from the leaf of an account that hashes only what is in the set. -/
structure Caminhada (cr : Cripto) (T : Set Bytes) (endereco : String) (conta : Value)
    (canonico : Bytes) (caminho : List PathStep) : Prop where
  canonica : conta.encode = .ok canonico
  folha : conteudo "acct" endereco canonico ∈ T
  passos : ∀ y ∈ preimagens cr.noDe parDe (cr.eavHash (conteudo "acct" endereco canonico)) caminho,
    y ∈ T

/-- The digest that a walk leads to. -/
def destino (cr : Cripto) (endereco : String) (canonico : Bytes) (caminho : List PathStep) : String :=
  caminho.foldl cr.sobePasso (cr.eavHash (conteudo "acct" endereco canonico))

/-- The proofs that are accepted against a root prove accounts of the state. -/
def ProvasSeguras (cr : Cripto) (T : Set Bytes) (s : State) (raiz : String) : Prop :=
  ∀ endereco conta canonico caminho, Caminhada cr T endereco conta canonico caminho →
    cr.verifyAccountProof raiz endereco conta caminho = true → s.Contem endereco conta

/-- No leaf of the state has the content of an account that is not there, and none ends
with a digest that a walk from such an account leads to. -/
structure SemForja (cr : Cripto) (T : Set Bytes) (s : State) : Prop where
  conta : ∀ e ∈ s.enumerar, ∀ bs, e.2.2.encode = .ok bs → ∀ endereco conta canonico,
    conta.encode = .ok canonico → conteudo e.1 e.2.1 bs = conteudo "acct" endereco canonico →
      s.Contem endereco conta
  texto : ∀ e ∈ s.enumerar, ∀ bs, e.2.2.encode = .ok bs → ∀ endereco conta canonico caminho,
    Caminhada cr T endereco conta canonico caminho → ∀ texto, conteudo e.1 e.2.1 bs =
      bytesDe texto ++ bytesDe (destino cr endereco canonico caminho) → s.Contem endereco conta

/-- The set holds all that the tree of a state hashes. -/
structure Abrange (cr : Cripto) (T : Set Bytes) (s : State) (folhas : List String) : Prop where
  folha : ∀ e ∈ s.enumerar, ∀ bs, e.2.2.encode = .ok bs → conteudo e.1 e.2.1 bs ∈ T
  par : ∀ p, Par cr.noDe (sortLeaves folhas) p → parDe p.1 p.2 ∈ T

theorem verifyAccountProof_iff {raiz endereco : String} {conta : Value} {canonico : Bytes}
    {caminho : List PathStep} (h : conta.encode = .ok canonico) :
    cr.verifyAccountProof raiz endereco conta caminho = true ↔
      destino cr endereco canonico caminho = raiz := by
  have hfolha : cr.accountLeaf endereco conta =
      .ok (cr.eavHash (conteudo "acct" endereco canonico)) := leaf_eq_ok.mpr ⟨canonico, h, rfl⟩
  unfold Cripto.verifyAccountProof
  rw [hfolha]
  exact beq_iff_eq

variable {folhas : List String}

/-- Any leaf of the state can be walked up to the root. -/
theorem sobe_da_folha (hfolhas : cr.stateLeaves s = .ok folhas) (habrange : Abrange cr T s folhas)
    {e : Registro} (he : e ∈ s.enumerar) {bs : Bytes} (hbs : e.2.2.encode = .ok bs) :
    ∃ caminho, caminha cr.noDe (cr.eavHash (conteudo e.1 e.2.1 bs)) caminho =
        cr.computeStateRoot folhas ∧
      ∀ y ∈ preimagens cr.noDe parDe (cr.eavHash (conteudo e.1 e.2.1 bs)) caminho, y ∈ T := by
  have hmem : cr.eavHash (conteudo e.1 e.2.1 bs) ∈ sortLeaves folhas :=
    mem_sortLeaves.mpr ((mem_folhas hfolhas).mpr ⟨e, he, leaf_eq_ok.mpr ⟨bs, hbs, rfl⟩⟩)
  obtain ⟨i, hi⟩ := List.mem_iff_getElem?.mp hmem
  have hvazia := folhas_ne_nil hfolhas
  refine ⟨_, caminha_merklePath hvazia hi, fun y hy => ?_⟩
  obtain ⟨p, hp, rfl⟩ := preimagens_merklePath hvazia hi hy
  exact habrange.par p hp

/-- From a leaf that ends with the digest of a walk, the walk goes on to the root. -/
theorem caminhada_forjada (hfolhas : cr.stateLeaves s = .ok folhas)
    (habrange : Abrange cr T s folhas) {e : Registro} (he : e ∈ s.enumerar) {bs : Bytes}
    (hbs : e.2.2.encode = .ok bs) {endereco : String} {conta : Value} {canonico : Bytes}
    {caminho : List PathStep} (h : Caminhada cr T endereco conta canonico caminho) {texto : String}
    (higuais : conteudo e.1 e.2.1 bs =
      bytesDe texto ++ bytesDe (destino cr endereco canonico caminho)) :
    ∃ inteiro, Caminhada cr T endereco conta canonico inteiro ∧
      cr.verifyAccountProof (cr.computeStateRoot folhas) endereco conta inteiro = true := by
  obtain ⟨resto, hraiz, hpassos⟩ := sobe_da_folha hfolhas habrange he hbs
  have hfolha := habrange.folha e he bs hbs
  rw [higuais] at hraiz hpassos hfolha
  refine ⟨caminho ++ ⟨texto, false⟩ :: resto, ⟨h.canonica, h.folha, ?_⟩,
    (verifyAccountProof_iff h.canonica).mpr ?_⟩
  · intro y hy
    rw [preimagens_append, preimagens] at hy
    rcases List.mem_append.mp hy with hy | hy
    · exact h.passos y hy
    · rcases List.mem_cons.mp hy with rfl | hy
      · exact hfolha
      · exact hpassos y hy
  · unfold destino
    rw [List.foldl_append, List.foldl_cons]
    exact hraiz

theorem semForja_of_seguras (hfolhas : cr.stateLeaves s = .ok folhas)
    (habrange : Abrange cr T s folhas) (h : ProvasSeguras cr T s (cr.computeStateRoot folhas)) :
    SemForja cr T s := by
  constructor
  · intro e he bs hbs endereco conta canonico hconta higuais
    obtain ⟨caminho, hraiz, hpassos⟩ := sobe_da_folha hfolhas habrange he hbs
    rw [higuais] at hraiz hpassos
    exact h endereco conta canonico caminho ⟨hconta, higuais ▸ habrange.folha e he bs hbs, hpassos⟩
      ((verifyAccountProof_iff hconta).mpr hraiz)
  · intro e he bs hbs endereco conta canonico caminho hcaminhada texto higuais
    obtain ⟨inteiro, hinteiro, hverifica⟩ :=
      caminhada_forjada hfolhas habrange he hbs hcaminhada higuais
    exact h endereco conta canonico inteiro hinteiro hverifica

theorem seguras_of_semForja (hd : cr.Digere) (hT : Set.InjOn cr.eavHash T)
    (hfolhas : cr.stateLeaves s = .ok folhas) (habrange : Abrange cr T s folhas)
    (h : SemForja cr T s) : ProvasSeguras cr T s (cr.computeStateRoot folhas) := by
  intro endereco conta canonico caminho hcaminhada hverifica
  have hbom := digesto_eavHash hd
  have hfim := (verifyAccountProof_iff hcaminhada.canonica).mp hverifica
  have hdescida : ∃ qs, qs <+: caminho ∧ caminha cr.noDe
      (cr.eavHash (conteudo "acct" endereco canonico)) qs ∈ sortLeaves folhas := by
    refine (raiz_computeStateRoot (folhas_ne_nil hfolhas)).desce alinha_parDe hbom hT ?_
      habrange.par hcaminhada.folha (fun a b ha _ => conteudo_ne_parDe (by decide +kernel) ha)
      hcaminhada.passos hfim
    intro folha hfolha
    obtain ⟨e, -, he⟩ := (mem_folhas hfolhas).mp (mem_sortLeaves.mp hfolha)
    obtain ⟨bs, -, rfl⟩ := leaf_eq_ok.mp he
    exact hbom _
  obtain ⟨qs, ⟨resto, rfl⟩, hfolha⟩ := hdescida
  obtain ⟨e, he, hleaf⟩ := (mem_folhas hfolhas).mp (mem_sortLeaves.mp hfolha)
  obtain ⟨bs, hbs, higuais⟩ := leaf_eq_ok.mp hleaf
  have hpassos := hcaminhada.passos
  rw [preimagens_append] at hpassos
  rcases List.eq_nil_or_concat qs with rfl | ⟨ps, p, rfl⟩
  · exact h.conta e he bs hbs endereco conta canonico hcaminhada.canonica
      (hT hcaminhada.folha (habrange.folha e he bs hbs) higuais).symm
  · rw [List.concat_eq_append] at hpassos higuais
    have hps : ∀ y ∈ preimagens cr.noDe parDe (cr.eavHash (conteudo "acct" endereco canonico)) ps,
        y ∈ T := by
      intro y hy
      refine hpassos y (List.mem_append_left _ ?_)
      rw [preimagens_append]
      exact List.mem_append_left _ hy
    rw [preimagens_append] at hpassos
    have hultima := hpassos _
      (List.mem_append_left _ (List.mem_append_right _ List.mem_cons_self))
    rw [caminha_append, caminha_cons] at higuais
    have hlimpo : Digesto (destino cr endereco canonico ps) :=
      bom_caminha parDe hbom (hbom _) ps
    have hsobe : sobe cr.noDe (destino cr endereco canonico ps) p =
        cr.eavHash (conteudo e.1 e.2.1 bs) := higuais
    unfold sobe at hsobe
    by_cases hr : p.right = true
    · rw [if_pos hr] at hsobe hultima
      have heq := hT hultima (habrange.folha e he bs hbs) hsobe
      exact absurd heq.symm (conteudo_ne_parDe (dominio_curto he) hlimpo)
    · rw [if_neg hr] at hsobe hultima
      have heq := hT hultima (habrange.folha e he bs hbs) hsobe
      exact h.texto e he bs hbs endereco conta canonico ps
        ⟨hcaminhada.canonica, hcaminhada.folha, hps⟩ p.hash heq.symm

/-- The accepted proofs are sound exactly when no leaf of the state can be forged. -/
theorem provas_seguras_iff (hd : cr.Digere) (hT : Set.InjOn cr.eavHash T)
    (hfolhas : cr.stateLeaves s = .ok folhas) (habrange : Abrange cr T s folhas) :
    ProvasSeguras cr T s (cr.computeStateRoot folhas) ↔ SemForja cr T s :=
  ⟨semForja_of_seguras hfolhas habrange, seguras_of_semForja hd hT hfolhas habrange⟩

end Seguranca

/-! ## A forged account -/

/-- All that the tree of a state hashes. -/
def tudoDe (cr : Cripto) (s : State) (folhas : List String) : List Bytes :=
  (s.enumerar.filterMap fun e => e.2.2.encode.toOption.map (conteudo e.1 e.2.1)) ++
    (todosPares cr.noDe folhas.length (sortLeaves folhas)).map fun p => parDe p.1 p.2

theorem tudoDe_map (cr : Cripto) (s : State) (ds : List Bytes) : tudoDe cr s (ds.map hexEncode) =
    (s.enumerar.filterMap fun e => e.2.2.encode.toOption.map (conteudo e.1 e.2.1)) ++
      (todosPares cr.noDeResumos ds.length (ordenaResumos ds)).map fun p =>
        parDeResumos p.1 p.2 := by
  have hpar : (fun p : String × String => parDe p.1 p.2) ∘ Prod.map hexEncode hexEncode =
      fun p : Bytes × Bytes => parDeResumos p.1 p.2 := funext fun p => parDe_hexEncode p.1 p.2
  unfold tudoDe sortLeaves
  rw [insertionSort_hexEncode, List.length_map, todosPares_map noDe_hexEncode, List.map_map, hpar]

theorem abrange_tudoDe {cr : Cripto} {s : State} {folhas : List String} {T : Set Bytes}
    (hT : ∀ y ∈ tudoDe cr s folhas, y ∈ T) : Abrange cr T s folhas := by
  refine ⟨fun e he bs hbs => hT _ ?_, fun p hp => hT _ ?_⟩
  · refine List.mem_append_left _ (List.mem_filterMap.mpr ⟨e, he, ?_⟩)
    rw [hbs]
    rfl
  · refine List.mem_append_right _ (List.mem_map_of_mem (hp.mem_todosPares ?_))
    exact (List.perm_insertionSort _ _).length_eq.le.trans (Nat.le_succ _)

/-- The text of bytes that are characters of their own. -/
def textoAscii (bs : Bytes) : String := String.ofList (bs.map fun b => Char.ofNat b.toNat)

theorem toNat_ofNat_ascii : ∀ n < 128, (Char.ofNat n).toNat = n := by decide +kernel

theorem bytesDe_textoAscii {bs : Bytes} (h : bs.all (· < 128) = true) :
    bytesDe (textoAscii bs) = bs := by
  refine (bytesDe_ofList _).trans ?_
  induction bs with
  | nil => rfl
  | cons b bs ih =>
    obtain ⟨hb, hbs⟩ := Bool.and_eq_true_iff.mp h
    have hb : b.toNat < 128 := UInt8.lt_iff_toNat_lt.mp (of_decide_eq_true hb)
    have hchar := toNat_ofNat_ascii b.toNat hb
    rw [List.map_cons, List.flatMap_cons, ih hbs, utf8EncodeChar_ascii (hchar.trans_lt hb), hchar,
      UInt8.ofNat_toNat]
    rfl

/-- A leaf that ends with a text is another text before it. -/
theorem conteudo_termina {bs : Bytes} {folha : String} (hascii : bs.all (· < 128) = true)
    (h : bs.drop (bs.length - 64) = bytesDe folha) :
    bs = bytesDe (textoAscii (bs.take (bs.length - 64))) ++ bytesDe folha := by
  rw [bytesDe_textoAscii (List.all_eq_true.mpr fun b hb =>
    List.all_eq_true.mp hascii b (List.mem_of_mem_take hb)), ← h, List.take_append_drop]

def alocacoesNft : JsonValue := .map [("stakes", .map [(enderecoA, .str "3000000000")])]

def estadoNft : State := fim (applyGenesis criptoIdeal alocacoesNft) {}

theorem genese_nft : Genese ambienteIdeal estadoNft := by
  have hconclui : conclui (applyGenesis criptoIdeal alocacoesNft) {} = true := by decide +kernel
  obtain ⟨⟨⟩, h⟩ := conclui_iff.mp hconclui
  exact ⟨alocacoesNft, h⟩

/-- An account that the state does not hold. -/
def contaForjada : Value := ({ balance := 1000000000000 } : Account).toValue

/-- The digest of its leaf at the address B. -/
def folhaForjada : String := "f7af029766aca80c252eb6e1fe2f4bc2a4d611cda478b2bf6f39b69da445b4cf"

def camposColecao : Tx :=
  { txType := "NFT_CREATE", de := "", nonce := 1, timestamp := 1, fee := "0"
    data := some (.map [("name", .str "x"), ("symbol", .str "XX")]) }

def idDaColecao : String := "9969c03618cb4390ca18d295fa75a4b2887819c6d050dcf6ba8f7f2413c4cf8c"

def camposUri : Tx :=
  { txType := "NFT_MINT", de := "", para := some enderecoA, nonce := 2, timestamp := 1, fee := "0"
    data := some (.map [("collection", .str idDaColecao), ("uri", .str folhaForjada)]) }

/-- A mints a token whose text is the forged digest. -/
def roteiroNft : List Ato :=
  [⟨chaveIdeal 0, enderecoA, camposColecao, .nftCreate, 1, 1, 1, ⟨0, 3680⟩, 0⟩,
    ⟨chaveIdeal 0, enderecoA, camposUri, .nftMint, 1, 1, 2, ⟨0, 5258⟩, 0⟩]

def estadoForjado : State := encena ambienteIdeal estadoNft roteiroNft

def folhasForjadas : List String := (criptoIdeal.stateLeaves estadoForjado).toOption.getD []

/-- The content of the leaf of the forged account. -/
def conteudoForjado : Bytes :=
  conteudo "acct" enderecoB (contaForjada.encode.toOption.getD [])

/-- What is hashed on the forged walk. -/
def hasheados : List Bytes := conteudoForjado :: tudoDe criptoIdeal estadoForjado folhasForjadas

/-- The digests of the leaves. -/
def resumosForjados : List Bytes :=
  (criptoIdeal.resumos estadoForjado.enumerar).toOption.getD []

theorem folhasForjadas_eq : folhasForjadas = resumosForjados.map hexEncode := by
  unfold folhasForjadas resumosForjados Cripto.stateLeaves
  rw [Cripto.folhas_eq_resumos]
  cases criptoIdeal.resumos estadoForjado.enumerar <;> rfl

/-- The script runs, a leaf of its state ends with the digest of the forged account, and what
is hashed on the walk has different digests. -/
instance forja_evidente : Fact (ensaia ambienteIdeal estadoNft roteiroNft = true ∧
    (estadoForjado.accounts.get? enderecoB).isNone = true ∧
    (criptoIdeal.stateLeaves estadoForjado).toOption.isSome = true ∧
    (estadoForjado.enumerar.any fun e => e.2.2.encode.toOption.any fun bs =>
      let x := conteudo e.1 e.2.1 bs
      x.all (· < 128) && x.drop (x.length - 64) == bytesDe folhaForjada) = true ∧
    contaForjada.encode.toOption.isSome = true ∧
    criptoIdeal.eavHash conteudoForjado = folhaForjada ∧
    (hasheados.map criptoIdeal.sha3).Nodup) where
  out := by
    unfold hasheados
    rw [folhasForjadas_eq, tudoDe_map]
    unfold resumosForjados estadoForjado
    rw [ambienteIdeal_eq, criptoIdeal_eq]
    decide +kernel

theorem eq_ok_of_toOption {ε α : Type} {x : Except ε α} {a : α} (h : x.toOption = some a) :
    x = .ok a := by
  cases x with
  | ok b => exact congrArg _ (Option.some.inj h)
  | error e => cases h

theorem eq_ok_getD {ε α : Type} {x : Except ε α} {d : α} (h : x.toOption.isSome = true) :
    x = .ok (x.toOption.getD d) := by
  obtain ⟨a, ha⟩ := Option.isSome_iff_exists.mp h
  rw [ha]
  exact eq_ok_of_toOption ha

theorem sem_colisao : Set.InjOn criptoIdeal.eavHash {y | y ∈ hasheados} :=
  Cripto.injOn_eavHash forja_evidente.out.2.2.2.2.2.2

theorem abrange_forjado :
    Abrange criptoIdeal {y | y ∈ hasheados} estadoForjado folhasForjadas :=
  abrange_tudoDe fun _ => List.mem_cons_of_mem _

theorem folhas_forjadas : criptoIdeal.stateLeaves estadoForjado = .ok folhasForjadas :=
  eq_ok_getD forja_evidente.out.2.2.1

theorem execucao_nft : Execucao ambienteIdeal estadoNft
    (passadoDe ambienteIdeal estadoNft [] roteiroNft) estadoForjado := by
  refine execucao_de_ensaia digere_ideal ?_ Percurso.inicio forja_evidente.out.1
  intro ato hato
  refine trio_capaz _ ?_
  rcases List.mem_pair.mp hato with rfl | rfl <;> simp [trio]

theorem ausente_forjada : ¬ estadoForjado.Contem enderecoB contaForjada := by
  rintro ⟨acc, hacc, -⟩
  have hausente := forja_evidente.out.2.1
  rw [hacc] at hausente
  cases hausente

/-- The walk from the forged account through the token of A. -/
theorem caminhada_do_uri : ∃ caminho canonico,
    Caminhada criptoIdeal {y | y ∈ hasheados} enderecoB contaForjada canonico caminho ∧
    criptoIdeal.verifyAccountProof (criptoIdeal.computeStateRoot folhasForjadas) enderecoB
      contaForjada caminho = true := by
  obtain ⟨-, -, -, hfolha, hconta, hhash, -⟩ := forja_evidente.out
  obtain ⟨e, he, hfolha⟩ := List.any_eq_true.mp hfolha
  obtain ⟨bs, hbs, hfolha⟩ := (Option.any_eq_true _ _).mp hfolha
  obtain ⟨hascii, hfim⟩ := Bool.and_eq_true_iff.mp hfolha
  have hcaminhada : Caminhada criptoIdeal {y | y ∈ hasheados} enderecoB contaForjada
      (contaForjada.encode.toOption.getD []) [] :=
    ⟨eq_ok_getD hconta, List.mem_cons_self, fun y hy => by cases hy⟩
  have higuais := conteudo_termina hascii (beq_iff_eq.mp hfim)
  rw [← hhash] at higuais
  obtain ⟨caminho, hcaminho, hverifica⟩ := caminhada_forjada folhas_forjadas abrange_forjado he
    (eq_ok_of_toOption hbs) hcaminhada higuais
  exact ⟨caminho, _, hcaminho, hverifica⟩

/-- A reached state where an absent account is proved, without a collision of the hash. -/
theorem prova_forjada : ∃ passado caminho canonico, Genese ambienteIdeal estadoNft ∧
    Execucao ambienteIdeal estadoNft passado estadoForjado ∧
    criptoIdeal.stateLeaves estadoForjado = .ok folhasForjadas ∧
    Set.InjOn criptoIdeal.eavHash {y | y ∈ hasheados} ∧
    Abrange criptoIdeal {y | y ∈ hasheados} estadoForjado folhasForjadas ∧
    Caminhada criptoIdeal {y | y ∈ hasheados} enderecoB contaForjada canonico caminho ∧
    criptoIdeal.verifyAccountProof (criptoIdeal.computeStateRoot folhasForjadas) enderecoB
      contaForjada caminho = true ∧ ¬ estadoForjado.Contem enderecoB contaForjada := by
  obtain ⟨caminho, canonico, hcaminho, hverifica⟩ := caminhada_do_uri
  exact ⟨_, caminho, canonico, genese_nft, execucao_nft, folhas_forjadas, sem_colisao,
    abrange_forjado, hcaminho, hverifica, ausente_forjada⟩

theorem estado_forjado_inseguro : ¬ SemForja criptoIdeal {y | y ∈ hasheados} estadoForjado := by
  intro h
  obtain ⟨caminho, canonico, hcaminho, hverifica⟩ := caminhada_do_uri
  exact ausente_forjada ((provas_seguras_iff digere_ideal sem_colisao folhas_forjadas
    abrange_forjado).mpr h _ _ _ _ hcaminho hverifica)

end Eav7
