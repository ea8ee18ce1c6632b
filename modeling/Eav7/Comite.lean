import Eav7.Base.Separador
import Eav7.Canonica
import Eav7.Ponte

/-!
# What a bridge committee signs

A release carries a digest of its event and a rotation a digest of the next committee.
Both are joined texts: what a signature binds is what the pieces of the text fix.
-/

namespace Eav7

open Base

/-! ## Joined texts -/

section Textos

def caractereUS : Char := Char.ofNat 0x1f

/-- A text without the separator of the digests. -/
abbrev Livre (s : String) : Prop := caractereUS ∉ s.toList

/-- What a digest hashes. -/
def textoDe (partes : List String) : Bytes := bytesDe (separador.intercalate partes)

/-- The pieces of the parts of a digest. -/
def pedacosDe (partes : List String) : List String :=
  (pedacos caractereUS (partes.map String.toList)).map String.ofList

theorem toList_injective : Function.Injective String.toList := fun _ _ h => String.toList_inj.mp h

theorem ofList_injective : Function.Injective String.ofList := fun a b h => by
  rw [← String.toList_ofList (l := a), ← String.toList_ofList (l := b), h]

theorem textoDe_eq_iff_intercalate {ps qs : List String} :
    textoDe ps = textoDe qs ↔ [caractereUS].intercalate (ps.map String.toList) =
      [caractereUS].intercalate (qs.map String.toList) := by
  have htexto : ∀ rs : List String, (separador.intercalate rs).toList =
      [caractereUS].intercalate (rs.map String.toList) := fun rs => by
    rw [String.toList_intercalate]
    rfl
  constructor
  · intro h
    rw [← htexto, ← htexto, bytesDe_injective h]
  · intro h
    rw [← htexto, ← htexto] at h
    exact congrArg bytesDe (toList_injective h)

theorem textoDe_eq_iff {ps qs : List String} (hps : ps ≠ []) (hqs : qs ≠ []) :
    textoDe ps = textoDe qs ↔ pedacosDe ps = pedacosDe qs := by
  rw [textoDe_eq_iff_intercalate, intercalate_eq_iff (by simpa using hps) (by simpa using hqs)]
  exact (List.map_injective_iff.mpr ofList_injective).eq_iff.symm

theorem pedacosDe_append (ps qs : List String) :
    pedacosDe (ps ++ qs) = pedacosDe ps ++ pedacosDe qs := by
  unfold pedacosDe
  rw [List.map_append, pedacos_append, List.map_append]

theorem pedacosDe_of_livres {ps : List String} (h : ∀ p ∈ ps, Livre p) : pedacosDe ps = ps := by
  unfold pedacosDe
  rw [pedacos_of_livres, List.map_map]
  · exact (List.map_congr_left fun s _ => String.ofList_toList).trans (List.map_id ps)
  · intro p hp
    obtain ⟨s, hs, rfl⟩ := List.mem_map.mp hp
    exact h s hs

theorem length_lt_pedacosDe {ps : List String} {p : String} (hp : p ∈ ps) (h : ¬ Livre p) :
    ps.length < (pedacosDe ps).length := by
  have hpartes := length_lt_pedacos (List.mem_map_of_mem (f := String.toList) hp)
    (not_not.mp h)
  simpa [pedacosDe] using hpartes

/-- One part may hold the separator when the others do not. -/
theorem textoDe_meio_inj (antes antes' depois depois' : List String) {p p' : String}
    (hlantes : antes.length = antes'.length) (hldepois : depois.length = depois'.length)
    (hantes : ∀ q ∈ antes, Livre q) (hantes' : ∀ q ∈ antes', Livre q)
    (hdepois : ∀ q ∈ depois, Livre q) (hdepois' : ∀ q ∈ depois', Livre q)
    (h : textoDe (antes ++ p :: depois) = textoDe (antes' ++ p' :: depois')) :
    antes = antes' ∧ p = p' ∧ depois = depois' := by
  have hletras : ∀ {ps : List String}, (∀ q ∈ ps, Livre q) →
      ∀ q ∈ ps.map String.toList, caractereUS ∉ q := by
    intro ps hps q hq
    obtain ⟨s, hs, rfl⟩ := List.mem_map.mp hq
    exact hps s hs
  have htexto := textoDe_eq_iff_intercalate.mp h
  simp only [List.map_append, List.map_cons] at htexto
  obtain ⟨ha, hp, hd⟩ := intercalate_meio_inj (by simpa using hlantes) (by simpa using hldepois)
    (hletras hantes) (hletras hantes') (hletras hdepois) (hletras hdepois') htexto
  have hmap := List.map_injective_iff.mpr toList_injective
  exact ⟨hmap ha, toList_injective hp, hmap hd⟩

/-- Digits, letters and what else the fields are made of. -/
theorem livre_of_all {s : String} (bom : Char → Bool) (hbom : bom caractereUS = false)
    (h : ∀ c ∈ s.toList, bom c = true) : Livre s := by
  intro hmem
  rw [h _ hmem] at hbom
  cases hbom

theorem livre_toString (n : ℕ) : Livre (toString n) := by
  refine livre_of_all Char.isDigit (by decide) fun c hc => ?_
  rw [Nat.toString_eq_repr, Nat.toList_repr] at hc
  exact Nat.isDigit_of_mem_toDigits (by decide) (by decide) hc

theorem toString_injective : Function.Injective (toString : ℕ → String) := by
  intro n m h
  have hdigitos : Nat.toDigits 10 n = Nat.toDigits 10 m := by
    rw [← Nat.toList_repr, ← Nat.toList_repr, ← Nat.toString_eq_repr, ← Nat.toString_eq_repr, h]
  rw [← Nat.ofDigitChars_toDigits (b := 10) (n := n) (by decide) (by decide), hdigitos,
    Nat.ofDigitChars_toDigits (by decide) (by decide)]

theorem livre_hexEncode (bs : Bytes) : Livre (hexEncode bs) := fun h =>
  absurd (hexMinusculo_of_mem h) (by decide)

end Textos

/-! ## Counted signatures -/

section Assinaturas

variable (cr : Cripto) {digest : Bytes} {sigs : Option JsonValue} {members : List String}

/-- The distinct members that a proof counts. -/
def Cripto.assinantes (digest : Bytes) (sigs : Option JsonValue) (members : List String) :
    List String :=
  let membros := (members.map cr.toLowercase).dedup
  let lista := match sigs with
    | some (.list itens) => itens
    | _ => []
  (((lista.take membros.length).filterMap (cr.recuperarEndereco digest)).filter
    membros.contains).dedup

theorem length_assinantes :
    (cr.assinantes digest sigs members).length = cr.verifyCommitteeProof digest sigs members := rfl

theorem nodup_assinantes : (cr.assinantes digest sigs members).Nodup := List.nodup_dedup _

/-- Whoever is counted is a member and a signature recovers it. -/
theorem mem_assinantes {a : String} (h : a ∈ cr.assinantes digest sigs members) :
    a ∈ members.map cr.toLowercase ∧ ∃ sig, cr.recuperarEndereco digest sig = some a := by
  unfold Cripto.assinantes at h
  rw [List.mem_dedup, List.mem_filter] at h
  obtain ⟨hvisto, hmembro⟩ := h
  obtain ⟨sig, -, hsig⟩ := List.mem_filterMap.mp hvisto
  exact ⟨List.mem_dedup.mp (List.contains_iff_mem.mp hmembro), sig, hsig⟩

end Assinaturas

/-! ## Who authorises a release -/

/-- The event of another chain that a release answers. -/
structure Evento where
  sourceChain : String
  sourceTxHash : String
  para : String
  amount : Amount
  token : Option String

namespace Evento

def partes (e : Evento) : List String :=
  ["EAV7-BRIDGE-IN", e.sourceChain, e.sourceTxHash, e.para, toString e.amount,
    e.token.getD "NATIVE"]

def digest (cr : Cripto) (e : Evento) : Bytes := cr.digestDe e.partes

/-- Only the hash of the source transaction is free text, and no token is called as the
native asset. -/
structure Legivel (e : Evento) : Prop where
  sourceChain : Livre e.sourceChain
  para : Livre e.para
  token : ∀ t ∈ e.token, Livre t ∧ t ≠ "NATIVE"

theorem Legivel.ativo {e : Evento} (h : e.Legivel) : Livre (e.token.getD "NATIVE") := by
  cases ht : e.token with
  | none => exact (by decide : Livre "NATIVE")
  | some t => exact (h.token t ht).1

theorem Legivel.token_inj {e e' : Evento} (h : e.Legivel) (h' : e'.Legivel)
    (hativo : e.token.getD "NATIVE" = e'.token.getD "NATIVE") : e.token = e'.token := by
  cases ht : e.token with
  | none =>
    cases ht' : e'.token with
    | none => rfl
    | some t =>
      rw [ht, ht'] at hativo
      exact absurd hativo.symm (h'.token t ht').2
  | some t =>
    cases ht' : e'.token with
    | none =>
      rw [ht, ht'] at hativo
      exact absurd hativo (h.token t ht).2
    | some t' =>
      rw [ht, ht'] at hativo
      exact congrArg some hativo

/-- The fields after the hash of the source transaction. -/
def fim (e : Evento) : List String := [e.para, toString e.amount, e.token.getD "NATIVE"]

theorem Legivel.livre_fim {e : Evento} (h : e.Legivel) : ∀ p ∈ e.fim, Livre p := by
  intro p hp
  simp only [fim, List.mem_cons, List.not_mem_nil, or_false] at hp
  rcases hp with rfl | rfl | rfl
  · exact h.para
  · exact livre_toString _
  · exact h.ativo

theorem Legivel.livre_inicio {e : Evento} (h : e.Legivel) :
    ∀ p ∈ ["EAV7-BRIDGE-IN", e.sourceChain], Livre p := by
  intro p hp
  rcases List.mem_pair.mp hp with rfl | rfl
  · exact (by decide : Livre "EAV7-BRIDGE-IN")
  · exact h.sourceChain

/-- The text of a legible event says which event it is. -/
theorem Legivel.inj {e e' : Evento} (h : e.Legivel) (h' : e'.Legivel)
    (htexto : textoDe e.partes = textoDe e'.partes) : e = e' := by
  obtain ⟨hinicio, hhash, hfim⟩ := textoDe_meio_inj ["EAV7-BRIDGE-IN", e.sourceChain]
    ["EAV7-BRIDGE-IN", e'.sourceChain] e.fim e'.fim rfl rfl h.livre_inicio h'.livre_inicio
    h.livre_fim h'.livre_fim htexto
  unfold fim at hfim
  simp only [List.cons.injEq, and_true, true_and] at hinicio hfim
  obtain ⟨hpara, hamount, hativo⟩ := hfim
  have hamount := toString_injective hamount
  have htoken := h.token_inj h' hativo
  cases e
  cases e'
  dsimp only at hinicio hhash hpara hamount htoken
  rw [hinicio, hhash, hpara, hamount, htoken]

end Evento

namespace BridgeTx.Deposito

/-- The event of a deposit. Chains are the same up to case. -/
def evento (cr : Cripto) (dep : Deposito) : Evento :=
  { sourceChain := cr.toUppercase dep.sourceChain, sourceTxHash := dep.sourceTxHash,
    para := dep.para, amount := dep.amount, token := dep.token }

theorem digest_evento (cr : Cripto) (dep : Deposito) : (dep.evento cr).digest cr =
    cr.bridgeEventDigest dep.sourceChain dep.sourceTxHash dep.para dep.amount dep.token := rfl

end BridgeTx.Deposito

/-- The standard library capitalises ASCII text letter by letter. -/
def CaixaAscii (cr : Cripto) : Prop :=
  ∀ s : String, (∀ c ∈ s.toList, c.toNat < 128) → cr.toUppercase s = maiusculas s

/-- The verifier of envelopes accepts the types that it classifies envelopes into. -/
def EnvelopeClassifica (amb : Ambiente) : Prop :=
  ∀ tx, amb.verifyEavmEnvelope tx = .ok () →
    tx.txType ∈ ["STAKE", "UNSTAKE", "EAVM_DEPLOY", "EAVM_CALL", "EAVM_TRANSFER"]

section Autoridade

open BridgeTx (Deposito lerDeposito conferirDeposito)

variable {amb : Ambiente} {s t : State} {tx : Tx} {dep : Deposito}

theorem letraDeCadeia {l : Char}
    (h : (asciiAlfanumerico l || l == '_' || l == '-') = true) :
    l.toNat < 128 ∧ asciiMaiuscula l ≠ caractereUS := by
  have hbaixa : l.toNat < 128 := by
    simp only [asciiAlfanumerico, Char.le_def, UInt32.le_iff_toNat_le, Bool.or_eq_true,
      Bool.and_eq_true, decide_eq_true_eq, beq_iff_eq] at h
    rcases h with (((⟨-, h⟩ | ⟨-, h⟩) | ⟨-, h⟩) | rfl) | rfl
    · exact lt_of_le_of_lt h (by decide)
    · exact lt_of_le_of_lt h (by decide)
    · exact lt_of_le_of_lt h (by decide)
    · decide
    · decide
  have htabela : ∀ n < 128, (asciiAlfanumerico (Char.ofNat n) || Char.ofNat n == '_' ||
      Char.ofNat n == '-') = true → asciiMaiuscula (Char.ofNat n) ≠ caractereUS := by decide
  have hn := htabela l.toNat hbaixa
  rw [Char.ofNat_toNat] at hn
  exact ⟨hbaixa, hn h⟩

theorem livre_cadeia {cr : Cripto} (hcaixa : CaixaAscii cr) {c : String}
    (h : BridgeTx.nomeDeCadeiaValido c = true) : Livre (cr.toUppercase c) := by
  unfold BridgeTx.nomeDeCadeiaValido at h
  have hletras := List.all_eq_true.mp (Bool.and_eq_true_iff.mp h).2
  rw [hcaixa c fun l hl => (letraDeCadeia (hletras l hl)).1]
  unfold Livre maiusculas
  rw [String.toList_ofList]
  intro hmem
  obtain ⟨l, hl, heq⟩ := List.mem_map.mp hmem
  exact (letraDeCadeia (hletras l hl)).2 heq

theorem livre_endereco {cr : Cripto} {address : String} (h : cr.isValidAddress address = true) :
    Livre address := by
  unfold Cripto.isValidAddress at h
  split at h
  · rename_i resto heq
    simp only [Bool.and_eq_true] at h
    have hresto := List.all_eq_true.mp h.1.2
    unfold Livre
    rw [heq]
    intro hmem
    simp only [List.mem_cons] at hmem
    rcases hmem with hc | hc | hc
    · exact absurd hc (by decide)
    · exact absurd hc (by decide)
    · exact absurd (hresto _ hc) (by decide)
  · cases h

theorem lerDeposito_eq_ok (h : lerDeposito s tx = .ok dep) :
    tx.para = some dep.para ∧ BridgeTx.nomeDeCadeiaValido dep.sourceChain = true := by
  obtain ⟨_, -, h₁⟩ := except_bind_eq_ok.mp h
  obtain ⟨d, -, h₂⟩ := except_bind_eq_ok.mp h₁
  obtain ⟨id, -, h₃⟩ := except_bind_eq_ok.mp h₂
  obtain ⟨para, hpara, h₄⟩ := except_bind_eq_ok.mp h₃
  obtain ⟨cadeia, hcadeia, h₅⟩ := except_bind_eq_ok.mp h₄
  obtain ⟨hash, -, h₆⟩ := except_bind_eq_ok.mp h₅
  obtain ⟨amount, -, h₇⟩ := except_bind_eq_ok.mp h₆
  obtain ⟨token, -, h₈⟩ := except_bind_eq_ok.mp h₇
  cases h₈
  exact ⟨exigir_eq_ok.mp hpara, (Option.filter_eq_some_iff.mp (exigir_eq_ok.mp hcadeia)).2⟩

/-- A deposit goes through when the committee in force signed it. -/
theorem prova_of_conferir {cr : Cripto} {ctx : Ctx}
    (h : conferirDeposito cr s tx ctx = .ok dep) :
    ∃ comite, s.bridgeSourceCommittees.get? (cr.toUppercase dep.sourceChain) = some comite ∧
      0 < comite.quorum ∧ ∃ sigs, comite.quorum ≤
        (cr.assinantes ((dep.evento cr).digest cr) sigs comite.members).length := by
  obtain ⟨dep', hler, h₁⟩ := except_bind_eq_ok.mp h
  obtain ⟨_, -, h₂⟩ := except_bind_eq_ok.mp h₁
  obtain ⟨_, -, h₃⟩ := except_bind_eq_ok.mp h₂
  obtain ⟨_, hprova, h₄⟩ := except_bind_eq_ok.mp h₃
  obtain ⟨_, -, h₅⟩ := except_bind_eq_ok.mp h₄
  cases h₅
  obtain ⟨comite, hcomite, hvalidas⟩ := except_bind_eq_ok.mp hprova
  obtain ⟨hcomite, hquorum⟩ := Option.filter_eq_some_iff.mp (exigir_eq_ok.mp hcomite)
  exact ⟨comite, hcomite, of_decide_eq_true hquorum, _, not_lt.mp (recusar_eq_ok.mp hvalidas)⟩

/-- A verified transaction of the common dispatch names no destination or a valid one. -/
theorem destino_of_verify (henvelope : EnvelopeClassifica amb)
    (hv : amb.verifyTransaction tx = .ok ()) (htipo : Tipo.deTexto tx.txType = some .bridgeIn)
    {para : String} (hpara : tx.para = some para) : amb.cripto.isValidAddress para = true := by
  unfold Ambiente.verifyTransaction at hv
  split_ifs at hv with hesquema
  · have hmem := henvelope tx hv
    simp only [List.mem_cons, List.not_mem_nil, or_false] at hmem
    rcases hmem with h | h | h | h | h <;> rw [h] at htipo <;> cases htipo
  · obtain ⟨_, -, h₁⟩ := except_bind_eq_ok.mp hv
    obtain ⟨_, -, h₂⟩ := except_bind_eq_ok.mp h₁
    obtain ⟨_, hdestino, -⟩ := except_bind_eq_ok.mp h₂
    unfold Ambiente.verifyDestino at hdestino
    rw [hpara] at hdestino
    simpa using falharSe_eq_ok.mp hdestino

/-- Every deposit that a run releases is legible. -/
theorem legivel_of_mem {s₀ : State} {passado : List (State × Acao)} {x : State × Acao}
    (h₀ : Genese amb s₀) (h : Execucao amb s₀ passado s) (henvelope : EnvelopeClassifica amb)
    (hcaixa : CaixaAscii amb.cripto) (hx : x ∈ passado) (hdep : x.2.deposito? x.1 = some dep) :
    (dep.evento amb.cripto).Legivel := by
  obtain ⟨antes, tx, ctx, hexec, htx, -, hconf⟩ := conferido_of_mem h hx hdep
  obtain ⟨hpara, hcadeia⟩ := lerDeposito_eq_ok (lerDeposito_of_conferir hconf)
  obtain ⟨-, t, -, ha, -⟩ := h.disparou hx
  have htipo : x.2.tipo? = some .bridgeIn := by
    by_contra hn
    rw [Acao.deposito?, if_neg hn] at hdep
    cases hdep
  refine ⟨livre_cadeia hcaixa hcadeia, ?_, ?_⟩
  · obtain ⟨u, a⟩ := x
    cases ha with
    | transacao hv =>
      cases htx
      refine livre_endereco (destino_of_verify henvelope hv ?_ hpara)
      simp only [Acao.tipo?, Acao.tx?, Option.bind_some] at htipo
      split_ifs at htipo
      exact htipo
    | tick => cases htx
    | abre => cases htx
    | emite => cases htx
  · intro token htoken
    obtain ⟨travado, htravado, -⟩ := except_bind_eq_ok.mp (liberacao_of_conferir hconf)
    rw [show dep.token = some token from htoken] at htravado
    dsimp only [BridgeTx.travadoDe] at htravado
    split_ifs at htravado with hcontem
    · obtain ⟨bs, hbs⟩ := tokensDeHash_of_execucao h₀ hexec token hcontem
      exact ⟨hbs ▸ livre_hexEncode _, ne_native hbs⟩
    · cases htravado

/-- Over a run, each release was signed, as the event that it is, by a quorum of distinct
members of the committee in force; and no signed event answers for another release. -/
theorem autoridade_da_ponte {s₀ : State} {passado : List (State × Acao)} (h₀ : Genese amb s₀)
    (h : Execucao amb s₀ passado s) (henvelope : EnvelopeClassifica amb)
    (hcaixa : CaixaAscii amb.cripto) {T : Set Bytes} (hT : Set.InjOn amb.cripto.keccak256 T)
    (htextos : ∀ dep ∈ depositosDe passado, textoDe (dep.evento amb.cripto).partes ∈ T)
    {Firmou : String → Bytes → Prop}
    (hfirmou : ∀ x ∈ passado, ∀ chave comite, x.1.bridgeSourceCommittees.get? chave = some comite →
      ∀ membro ∈ comite.members.map amb.cripto.toLowercase, ∀ digest sig,
        amb.cripto.recuperarEndereco digest sig = some membro → Firmou membro digest) :
    (∀ x ∈ passado, ∀ dep, x.2.deposito? x.1 = some dep → ∃ comite,
      x.1.bridgeSourceCommittees.get? (amb.cripto.toUppercase dep.sourceChain) = some comite ∧
        0 < comite.quorum ∧ ∃ quem : List String, quem.Nodup ∧ comite.quorum ≤ quem.length ∧
          ∀ membro ∈ quem, membro ∈ comite.members.map amb.cripto.toLowercase ∧
            Firmou membro ((dep.evento amb.cripto).digest amb.cripto)) ∧
    (∀ dep ∈ depositosDe passado, ∀ e : Evento, e.Legivel → textoDe e.partes ∈ T →
      e.digest amb.cripto = (dep.evento amb.cripto).digest amb.cripto →
        e = dep.evento amb.cripto) ∧
    ((depositosDe passado).map fun dep => (dep.evento amb.cripto).digest amb.cripto).Nodup := by
  have hlegivel : ∀ dep ∈ depositosDe passado, (dep.evento amb.cripto).Legivel := by
    intro dep hdep
    obtain ⟨x, hx, hdep⟩ := List.mem_filterMap.mp hdep
    exact legivel_of_mem h₀ h henvelope hcaixa hx hdep
  have hunico : ∀ dep ∈ depositosDe passado, ∀ e : Evento, e.Legivel → textoDe e.partes ∈ T →
      e.digest amb.cripto = (dep.evento amb.cripto).digest amb.cripto →
        e = dep.evento amb.cripto := by
    intro dep hdep e he heT hdigest
    exact he.inj (hlegivel dep hdep) (hT heT (htextos dep hdep) hdigest)
  refine ⟨?_, hunico, ?_⟩
  · intro x hx dep hdep
    obtain ⟨-, tx, ctx, -, -, -, hconf⟩ := conferido_of_mem h hx hdep
    obtain ⟨comite, hcomite, hquorum, sigs, hvalidas⟩ := prova_of_conferir hconf
    refine ⟨comite, hcomite, hquorum, _, nodup_assinantes _, hvalidas, fun membro hmembro => ?_⟩
    obtain ⟨hdele, sig, hsig⟩ := mem_assinantes _ hmembro
    exact ⟨hdele, hfirmou x hx _ comite hcomite membro hdele _ sig hsig⟩
  · -- two releases of one digest would be two releases of one replay key
    have hchaves := List.pairwise_map.mp (chaves_dos_depositos h).1
    refine List.pairwise_map.mpr (hchaves.imp_of_mem fun {dep outro} hdep houtro hchave heq => ?_)
    have hevento := hunico outro houtro _ (hlegivel dep hdep) (htextos dep hdep) heq
    refine hchave ?_
    change s!"{(dep.evento amb.cripto).sourceChain}:{(dep.evento amb.cripto).sourceTxHash}" =
      s!"{(outro.evento amb.cripto).sourceChain}:{(outro.evento amb.cripto).sourceTxHash}"
    rw [hevento]

theorem toUpper_eq_maiusculas {s : String} (h : ∀ c ∈ s.toList, c.toNat < 128) :
    s.toUpper = maiusculas s := by
  have htabela : ∀ n < 128, (Char.ofNat n).toUpper = asciiMaiuscula (Char.ofNat n) := by decide
  refine toList_injective ?_
  unfold String.toUpper maiusculas
  rw [String.toList_map, String.toList_ofList]
  refine List.map_congr_left fun c hc => ?_
  have hc := htabela c.toNat (h c hc)
  rwa [Char.ofNat_toNat] at hc
theorem envelope_comite : EnvelopeClassifica ambienteComite := by
  intro tx h
  cases h

theorem caixa_comite : CaixaAscii criptoComite := fun _ h => toUpper_eq_maiusculas h

theorem um_deposito :
    (depositosDe ((depoisDoTique, acaoEntrada) :: passadoDaEntrada)).length = 1 :=
  entrada_pronta.out.2.2.2.2.2

/-- The deposit of the run was signed by the only member. -/
theorem autoridade_da_entrada : ∃ x ∈ (depoisDoTique, acaoEntrada) :: passadoDaEntrada,
    ∃ dep comite, x.2.deposito? x.1 = some dep ∧
      x.1.bridgeSourceCommittees.get? (ambienteComite.cripto.toUppercase dep.sourceChain) =
        some comite ∧ 0 < comite.quorum ∧
      ∃ quem : List String, quem.Nodup ∧ comite.quorum ≤ quem.length ∧ ∀ membro ∈ quem,
        membro ∈ comite.members.map ambienteComite.cripto.toLowercase ∧
        ∃ sig, ambienteComite.cripto.recuperarEndereco
          ((dep.evento ambienteComite.cripto).digest ambienteComite.cripto) sig = some membro := by
  obtain ⟨unico, hunico⟩ := List.length_eq_one_iff.mp um_deposito
  have htextos : ∀ dep ∈ depositosDe ((depoisDoTique, acaoEntrada) :: passadoDaEntrada),
      textoDe (dep.evento ambienteComite.cripto).partes ∈
        ({textoDe (unico.evento ambienteComite.cripto).partes} : Set Bytes) := by
    intro dep hdep
    rw [hunico, List.mem_singleton] at hdep
    rw [hdep]
    exact Set.mem_singleton _
  have hfim := autoridade_da_ponte genese_ponte execucao_da_entrada envelope_comite caixa_comite
    (Set.injOn_singleton _ _) htextos fun x _ chave comite _ membro _ digest sig hsig =>
      (⟨sig, hsig⟩ : ∃ sig, ambienteComite.cripto.recuperarEndereco digest sig = some membro)
  obtain ⟨x, hx, hdep⟩ := List.mem_filterMap.mp (hunico ▸ List.mem_singleton_self unico)
  obtain ⟨comite, hcomite⟩ := hfim.1 x hx unico hdep
  exact ⟨x, hx, unico, comite, hdep, hcomite⟩

end Autoridade

end Eav7
