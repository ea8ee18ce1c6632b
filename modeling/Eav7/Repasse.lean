import Eav7.Comite

/-!
# Who appoints the next bridge committee

A rotation goes through with the signatures of the current committee over the joined
fields of the next one. They name that successor as long as no field holds the separator.
-/

namespace Eav7

open Base

/-- The members in the order in which the digest lists them. -/
def Cripto.ordenados (cr : Cripto) (members : List String) : List String :=
  (members.map cr.toLowercase).insertionSort fun a b => utf16 a ≤ utf16 b

/-- A rotation as a member of a committee signs it: no field holds the separator, and the
members are sorted. -/
structure Repasse where
  sourceChain : String
  epoch : ℕ
  quorum : ℕ
  members : List String
  livre : Livre sourceChain ∧ ∀ m ∈ members, Livre m
  ordenado : members.Pairwise fun a b => utf16 a ≤ utf16 b

namespace Repasse

def campos (r : Repasse) : List String :=
  r.sourceChain :: toString r.epoch :: toString r.quorum :: r.members

def partes (r : Repasse) : List String := "EAV7-BRIDGE-COMMITTEE" :: r.campos

def digest (cr : Cripto) (r : Repasse) : Bytes := cr.digestDe r.partes

theorem livre_campos (r : Repasse) : ∀ p ∈ r.campos, Livre p := by
  intro p hp
  simp only [campos, List.mem_cons] at hp
  rcases hp with rfl | rfl | rfl | hp
  · exact r.livre.1
  · exact livre_toString _
  · exact livre_toString _
  · exact r.livre.2 p hp

end Repasse

namespace Committee

/-- What the current committee signs of its successor. -/
def campos (cr : Cripto) (novo : Committee) : List String :=
  cr.toUppercase novo.sourceChain :: toString novo.epoch :: toString novo.quorum ::
    cr.ordenados novo.members

def partes (cr : Cripto) (novo : Committee) : List String :=
  "EAV7-BRIDGE-COMMITTEE" :: novo.campos cr

/-- The signed text reads as one rotation at most: no field holds the separator, or the
pieces between separators are not the fields of a rotation. -/
def LeituraUnica (cr : Cripto) (novo : Committee) : Prop :=
  (∀ p ∈ novo.campos cr, Livre p) ∨ ∀ r : Repasse, pedacosDe (novo.campos cr) ≠ r.campos

theorem length_campos (cr : Cripto) (novo : Committee) :
    (novo.campos cr).length = novo.members.length + 3 := by
  simp [campos, Cripto.ordenados]

/-- A rotation has the text of a successor when it lists the pieces of that text. -/
theorem textoDe_eq_iff_pedacos {cr : Cripto} {novo : Committee} {r : Repasse} :
    textoDe r.partes = textoDe (novo.partes cr) ↔ r.campos = pedacosDe (novo.campos cr) := by
  have hetiqueta : ∀ ps, pedacosDe ("EAV7-BRIDGE-COMMITTEE" :: ps) =
      "EAV7-BRIDGE-COMMITTEE" :: pedacosDe ps := fun ps => by
    rw [← List.singleton_append, pedacosDe_append, pedacosDe_of_livres]
    · rfl
    · intro p hp
      rw [List.mem_singleton.mp hp]
      decide
  unfold Repasse.partes partes
  rw [textoDe_eq_iff (by simp) (by simp), hetiqueta, hetiqueta,
    pedacosDe_of_livres r.livre_campos, List.cons.injEq, eq_self, true_and]

/-- A rotation that lists the fields of a successor names its epoch, quorum and members. -/
theorem perm_of_campos {cr : Cripto} {novo : Committee} {r : Repasse}
    (hminusculos : novo.members.map cr.toLowercase = novo.members)
    (h : r.campos = novo.campos cr) :
    r.epoch = novo.epoch ∧ r.quorum = novo.quorum ∧ r.members.Perm novo.members := by
  simp only [Repasse.campos, campos, List.cons.injEq] at h
  obtain ⟨-, hepoch, hquorum, hmembers⟩ := h
  refine ⟨toString_injective hepoch, toString_injective hquorum, ?_⟩
  rw [hmembers, Cripto.ordenados, hminusculos]
  exact List.perm_insertionSort _ _

end Committee

instance : Cego State.bridgeSourceCommittees .accounts := ⟨fun _ => rfl⟩
instance : Cego State.bridgeSourceCommittees .totalBurned := ⟨fun _ => rfl⟩

namespace BridgeTx

/-- The chain whose committee a transaction rotates. -/
def cadeiaDoRepasse (cr : Cripto) (tx : Tx) : String :=
  cr.toUppercase (((tx.data.bind (·.campo "sourceChain")).bind escalarComoTexto).getD "")

theorem membrosNovos_eq_ok {cr : Cripto} {nc : JsonValue} {membros : List String}
    (h : membrosNovos cr nc = .ok membros) : ∃ textos : List String, membros = textos.map cr.toLowercase := by
  unfold membrosNovos at h
  split at h
  · rename_i itens _
    cases h
    exact ⟨itens.map jsStringDe, by rw [List.map_map]; rfl⟩
  · cases h
    exact ⟨[], rfl⟩
  · cases h

/-- The successor of an accepted rotation has the next epoch and a quorum of the current
committee behind its digest. -/
theorem conferirComite_eq_ok {cr : Cripto} {s : State} {d : JsonValue} {novo : Committee}
    (h : conferirComite cr s d = .ok novo) :
    ∃ atual, s.bridgeSourceCommittees.get? novo.sourceChain = some atual ∧ 0 < atual.quorum ∧
      novo.sourceChain = cr.toUppercase (((d.campo "sourceChain").bind escalarComoTexto).getD "") ∧
      novo.epoch = atual.epoch + 1 ∧
      (∃ textos : List String, novo.members = textos.map cr.toLowercase) ∧ ∃ sigs, atual.quorum ≤
        (cr.assinantes (cr.digestDe (novo.partes cr)) sigs atual.members).length := by
  obtain ⟨atual, hatual, h₁⟩ := except_bind_eq_ok.mp h
  dsimp only at h₁
  split at h₁
  · obtain ⟨nc, -, h₂⟩ := except_bind_eq_ok.mp h₁
    obtain ⟨membros, hmembros, h₃⟩ := except_bind_eq_ok.mp h₂
    obtain ⟨quorum, -, h₄⟩ := except_bind_eq_ok.mp h₃
    obtain ⟨_, -, h₅⟩ := except_bind_eq_ok.mp h₄
    obtain ⟨_, -, h₆⟩ := except_bind_eq_ok.mp h₅
    obtain ⟨_, -, h₇⟩ := except_bind_eq_ok.mp h₆
    obtain ⟨_, -, h₈⟩ := except_bind_eq_ok.mp h₇
    obtain ⟨_, hvalidas, h₉⟩ := except_bind_eq_ok.mp h₈
    cases h₉
    obtain ⟨hatual, hquorum⟩ := Option.filter_eq_some_iff.mp (exigir_eq_ok.mp hatual)
    exact ⟨atual, hatual, of_decide_eq_true hquorum, rfl, rfl, membrosNovos_eq_ok hmembros, _,
      not_lt.mp (recusar_eq_ok.mp hvalidas)⟩
  · obtain ⟨nc, herro, -⟩ := except_bind_eq_ok.mp h₁
    cases herro

theorem committeeUpdate_eq_ok {cr : Cripto} {tx : Tx} {ctx : Ctx} {s t : State} {u : Unit}
    (h : committeeUpdate cr tx ctx s = .ok u t) :
    ∃ d novo, tx.data = some d ∧ conferirComite cr s d = .ok novo ∧
      t.bridgeSourceCommittees = s.bridgeSourceCommittees.insert novo.sourceChain novo := by
  unfold committeeUpdate at h
  rw [get_bind_run] at h
  obtain ⟨_, v, hrelayer, h₁⟩ := bind_eq_ok.mp h
  obtain ⟨-, rfl⟩ := lift_eq_ok.mp hrelayer
  obtain ⟨d, v, hd, h₂⟩ := bind_eq_ok.mp h₁
  obtain ⟨hd', rfl⟩ := lift_eq_ok.mp hd
  obtain ⟨novo, v, hnovo, h₃⟩ := bind_eq_ok.mp h₂
  obtain ⟨hnovo', rfl⟩ := lift_eq_ok.mp hnovo
  obtain ⟨_, v, hsaldo, h₄⟩ := bind_eq_ok.mp h₃
  obtain ⟨-, rfl⟩ := lift_eq_ok.mp hsaldo
  obtain ⟨_, w, hdebita, h₅⟩ := bind_eq_ok.mp h₄
  obtain ⟨-, rfl⟩ := EStateM.Result.ok.inj h₅
  have hw : w.bridgeSourceCommittees = v.bridgeSourceCommittees :=
    Mantem.le (debitar_mantem _ _) hdebita
  have hdados : tx.data = some d := by
    unfold GovTx.dados at hd'
    split at hd'
    · rename_i m hm
      cases hd'
      exact hm
    · cases hd'
  exact ⟨d, novo, hdados, hnovo', congrArg (·.insert novo.sourceChain novo) hw⟩

end BridgeTx

namespace Committee

/-- A quorum of distinct members of the current committee signed the members, the quorum
and the epoch of the successor, as long as nobody signs for them. -/
def Nomeado (cr : Cripto) (T : Set Bytes) (novo atual : Committee) : Prop :=
  ∀ Firmou : String → Repasse → Prop, (∀ membro r, Firmou membro r → textoDe r.partes ∈ T) →
    (∀ membro ∈ atual.members.map cr.toLowercase, ∀ sig,
      cr.recuperarEndereco (cr.digestDe (novo.partes cr)) sig = some membro →
        ∃ r, Firmou membro r ∧ r.digest cr = cr.digestDe (novo.partes cr)) →
    ∃ quem : List String, quem.Nodup ∧ atual.quorum ≤ quem.length ∧ ∀ membro ∈ quem,
      membro ∈ atual.members.map cr.toLowercase ∧ ∃ r, Firmou membro r ∧
        r.epoch = atual.epoch + 1 ∧ r.epoch = novo.epoch ∧ r.quorum = novo.quorum ∧
          r.members.Perm novo.members

variable {cr : Cripto} {T : Set Bytes} {atual novo : Committee}

/-- With one reading, who was counted signed the successor. -/
theorem nomeado_of_leitura (hT : Set.InjOn cr.keccak256 T) (htexto : textoDe (novo.partes cr) ∈ T)
    (hminusculos : novo.members.map cr.toLowercase = novo.members)
    (hepoch : novo.epoch = atual.epoch + 1) {sigs : Option JsonValue}
    (hvalidas : atual.quorum ≤
      (cr.assinantes (cr.digestDe (novo.partes cr)) sigs atual.members).length)
    (h : novo.LeituraUnica cr) : Nomeado cr T novo atual := by
  intro Firmou htextos hfirmou
  refine ⟨_, nodup_assinantes cr, hvalidas, fun membro hmembro => ?_⟩
  obtain ⟨hdele, sig, hsig⟩ := mem_assinantes cr hmembro
  obtain ⟨r, hr, hdigest⟩ := hfirmou membro hdele sig hsig
  have hpedacos := textoDe_eq_iff_pedacos.mp (hT (htextos membro r hr) htexto hdigest)
  rcases h with hlivre | hnenhum
  · rw [pedacosDe_of_livres hlivre] at hpedacos
    obtain ⟨hr₁, hr₂, hr₃⟩ := perm_of_campos hminusculos hpedacos
    exact ⟨hdele, r, hr, hr₁.trans hepoch, hr₁, hr₂, hr₃⟩
  · exact absurd hpedacos.symm (hnenhum r)

/-- With a second reading, the members may have signed that one. -/
theorem leitura_of_nomeado (htexto : textoDe (novo.partes cr) ∈ T) (hquorum : 0 < atual.quorum)
    (h : Nomeado cr T novo atual) : novo.LeituraUnica cr := by
  by_contra hduas
  obtain ⟨hpreso, houtra⟩ := not_or.mp hduas
  push Not at hpreso houtra
  obtain ⟨p, hp, hpreso⟩ := hpreso
  obtain ⟨r, hr⟩ := houtra
  have htextos : textoDe r.partes = textoDe (novo.partes cr) :=
    textoDe_eq_iff_pedacos.mpr hr.symm
  obtain ⟨quem, -, hquem, hfirmou⟩ := h (fun _ r' => r' = r)
    (fun _ r' hr' => by rw [hr', htextos]; exact htexto)
    fun _ _ _ _ => ⟨r, rfl, congrArg cr.keccak256 htextos⟩
  obtain ⟨membro, hmembro⟩ := List.exists_mem_of_length_pos (lt_of_lt_of_le hquorum hquem)
  obtain ⟨-, r', rfl, -, -, -, hperm⟩ := hfirmou membro hmembro
  -- a separator inside a field makes more pieces than the fields of the successor
  have hmais := length_lt_pedacosDe hp (not_not.mpr hpreso)
  rw [hr, length_campos] at hmais
  have hlen := hperm.length_eq
  simp only [Repasse.campos, List.length_cons] at hmais
  omega

end Committee

section Sucessao

variable {amb : Ambiente} {s t : State} {a : Acao} {tx : Tx} {atual novo : Committee}

/-- An accepted rotation installs what the current committee signed exactly when the
signed text has one reading. -/
theorem repasse_nomeado (ha : a.Aceita amb s t) (htx : a.tx? = some tx)
    (htipo : a.tipo? = some .bridgeCommitteeUpdate)
    (hatual : s.bridgeSourceCommittees.get? (BridgeTx.cadeiaDoRepasse amb.cripto tx) = some atual)
    (hnovo : t.bridgeSourceCommittees.get? (BridgeTx.cadeiaDoRepasse amb.cripto tx) = some novo)
    (hminusculas : ∀ x, amb.cripto.toLowercase (amb.cripto.toLowercase x) =
      amb.cripto.toLowercase x)
    {T : Set Bytes} (hT : Set.InjOn amb.cripto.keccak256 T)
    (htexto : textoDe (novo.partes amb.cripto) ∈ T) :
    novo.Nomeado amb.cripto T atual ↔ novo.LeituraUnica amb.cripto := by
  obtain ⟨height, blockTs, rfl, ⟨desp⟩⟩ := ha.despacho_of_tipo htx htipo
  obtain ⟨d, instalado, hd, hconf, hmeio⟩ := @BridgeTx.committeeUpdate_eq_ok _ _
    ⟨height, blockTs, desp.fee⟩ _ _ _ desp.maneja
  obtain ⟨atual', hatual', hquorum, hcadeia, hepoch, ⟨textos, hmembros⟩, sigs, hvalidas⟩ :=
    BridgeTx.conferirComite_eq_ok hconf
  have hchave : instalado.sourceChain = BridgeTx.cadeiaDoRepasse amb.cripto tx := by
    rw [hcadeia, BridgeTx.cadeiaDoRepasse, hd]
    rfl
  have ht : t.bridgeSourceCommittees = desp.meio.bridgeSourceCommittees := desp.le
  rw [ht, hmeio, hchave, OrdMap.get?_insert_self] at hnovo
  rw [hchave, hatual] at hatual'
  obtain rfl := Option.some.inj hnovo
  obtain rfl := Option.some.inj hatual'
  have hlidos : instalado.members.map amb.cripto.toLowercase = instalado.members := by
    rw [hmembros, List.map_map]
    exact List.map_congr_left fun x _ => hminusculas x
  constructor
  · exact Committee.leitura_of_nomeado htexto hquorum
  · exact Committee.nomeado_of_leitura hT htexto hlidos hepoch hvalidas

theorem toLower_toLower (s : String) : s.toLower.toLower = s.toLower := by
  have hletra : ∀ c : Char, c.toLower.toLower = c.toLower := by
    intro c
    by_cases hc : c.toNat < 128
    · have htabela : ∀ n < 128, (Char.ofNat n).toLower.toLower = (Char.ofNat n).toLower := by decide
      have h := htabela c.toNat hc
      rwa [Char.ofNat_toNat] at h
    · have h : c.toLower = c := by
        unfold Char.toLower
        rw [dif_neg]
        rintro ⟨-, h⟩
        exact hc (lt_of_le_of_lt (UInt32.le_iff_toNat_le.mp h) (by decide))
      rw [h, h]
  refine toList_injective ?_
  unfold String.toLower
  rw [String.toList_map, String.toList_map, List.map_map]
  exact List.map_congr_left fun c _ => hletra c

/-- A rotation that A relays to members of its choice, with the signatures of a rotation
to the members a, b and c. -/
def camposRepasse (membros : List String) : Tx :=
  { txType := "BRIDGE_COMMITTEE_UPDATE", de := "", nonce := 1, timestamp := 1, fee := "1000000"
    data := some (.map [("newCommittee", .map [("members", .list (membros.map .str)),
        ("quorum", .int 1)]),
      ("sigs", .list [.map [("r", .int 1), ("recId", .int 0),
        ("s", .str "0x9067b6c96a97ed43cec8816b7380397f13a45a63fd648b7aa399f3e3a091bc6d")]]),
      ("sourceChain", .str "ETH")]) }

def depoisDoRepasse (membros : List String) (bytes : ℕ) : State :=
  depoisDeA (camposRepasse membros) .bridgeCommitteeUpdate estadoPonte 1 1 ⟨0, bytes⟩ 0

def comiteDaPonte : Committee :=
  { sourceChain := "ETH", members := ["0x4a62bf5e179ea78fd58a1ccd71c22cc9b688792f"], quorum := 1,
    epoch := 0 }

def comiteNovo (membros : List String) : Committee :=
  { sourceChain := "ETH", members := membros, quorum := 1, epoch := 1 }

def camposDe (c : Committee) : String × List String × ℕ × ℕ :=
  (c.sourceChain, c.members, c.quorum, c.epoch)

theorem eq_some_of_campos {o : Option Committee} {c : Committee}
    (h : o.map camposDe = some (camposDe c)) : o = some c := by
  obtain ⟨c', rfl, hcampos⟩ := Option.map_eq_some_iff.mp h
  cases c
  cases c'
  cases hcampos
  rfl

/-- The members of two rotations, and what each one weighs. -/
def repassesLidos : List (List String × ℕ) := [(["a\x1fb", "c"], 1074), (["a", "b", "c"], 1068)]

/-- Both rotations are accepted, and install what the relayer names. -/
instance repasses_prontos : Fact ((estadoPonte.bridgeSourceCommittees.get? "ETH").map camposDe =
      some (camposDe comiteDaPonte) ∧
    ∀ r ∈ repassesLidos,
      pronta ambienteComite (chaveIdeal 0) enderecoA (camposRepasse r.1) .bridgeCommitteeUpdate
        estadoPonte 1 1 1 ⟨0, r.2⟩ 0 = true ∧
      ((depoisDoRepasse r.1 r.2).bridgeSourceCommittees.get? "ETH").map camposDe =
        some (camposDe (comiteNovo r.1))) where
  out := by
    unfold depoisDoRepasse depoisDeA assinaA
    rw [ambienteComite_eq, criptoComite_eq]
    decide +kernel

theorem comite_da_ponte : estadoPonte.bridgeSourceCommittees.get? "ETH" = some comiteDaPonte :=
  eq_some_of_campos repasses_prontos.out.1

/-- A rotation of the two is accepted, and installs its members. -/
theorem repasse_instalado {membros : List String} {bytes : ℕ}
    (h : (membros, bytes) ∈ repassesLidos) :
    Acao.Aceita ambienteComite (.transacao (assinaA (camposRepasse membros)) 1 1) estadoPonte
        (depoisDoRepasse membros bytes) ∧
      (depoisDoRepasse membros bytes).bridgeSourceCommittees.get? "ETH" =
        some (comiteNovo membros) := by
  obtain ⟨hpronta, hcampos⟩ := repasses_prontos.out.2 _ h
  exact ⟨aceita_de_A hpronta, eq_some_of_campos hcampos⟩

/-- The relayer fuses the members a and b, and the signatures still count. -/
theorem repasse_de_outra_leitura :
    Acao.Aceita ambienteComite (.transacao (assinaA (camposRepasse ["a\x1fb", "c"])) 1 1)
      estadoPonte (depoisDoRepasse ["a\x1fb", "c"] 1074) ∧
    estadoPonte.bridgeSourceCommittees.get? "ETH" = some comiteDaPonte ∧
    (depoisDoRepasse ["a\x1fb", "c"] 1074).bridgeSourceCommittees.get? "ETH" =
      some (comiteNovo ["a\x1fb", "c"]) ∧
    ¬ (comiteNovo ["a\x1fb", "c"]).Nomeado ambienteComite.cripto
      {textoDe ((comiteNovo ["a\x1fb", "c"]).partes ambienteComite.cripto)} comiteDaPonte := by
  have hlido : (["a\x1fb", "c"], 1074) ∈ repassesLidos := List.mem_cons_self
  obtain ⟨ha, hnovo⟩ := repasse_instalado hlido
  refine ⟨ha, comite_da_ponte, hnovo, fun h => ?_⟩
  rcases Committee.leitura_of_nomeado (Set.mem_singleton _) (by decide) h with hlivre | hunica
  · have hpreso : ¬ Livre "a\x1fb" := by decide
    exact hpreso (hlivre _ (by decide +kernel))
  · exact hunica ⟨"ETH", 1, 1, ["a", "b", "c"], by decide, by decide⟩ (by decide +kernel)

theorem repasse_fiel : (comiteNovo ["a", "b", "c"]).Nomeado ambienteComite.cripto
    {textoDe ((comiteNovo ["a", "b", "c"]).partes ambienteComite.cripto)} comiteDaPonte := by
  have hlido : (["a", "b", "c"], 1068) ∈ repassesLidos := by simp [repassesLidos]
  obtain ⟨ha, hnovo⟩ := repasse_instalado hlido
  have hcadeia : BridgeTx.cadeiaDoRepasse ambienteComite.cripto
      (assinaA (camposRepasse ["a", "b", "c"])) = "ETH" := by decide +kernel
  refine (repasse_nomeado ha rfl (by decide +kernel) (hcadeia ▸ comite_da_ponte)
    (hcadeia ▸ hnovo) toLower_toLower (Set.injOn_singleton _ _) (Set.mem_singleton _)).mpr
      (.inl ?_)
  decide +kernel

end Sucessao
end Eav7
