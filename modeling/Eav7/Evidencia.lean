import Eav7.Crescimento
import Eav7.Value

/-!
# Evidence of a double signature

What an accepted `SLASH_DOUBLE_SIGN` proves: two blocks that pass the integrity check with
the keys they carry, of the same key and height, with different hashes.
-/

namespace Eav7

open Base Blockchain

namespace JsonValue

theorem texto?_of_igual {v w : JsonValue} (h : igual v w = true) : v.texto? = w.texto? := by
  cases v <;> cases w <;> simp_all [igual, texto?]

theorem textoOuVazio_of_camposIguais {x y : Option JsonValue} (h : camposIguais x y = true) :
    textoOuVazio x = textoOuVazio y := by
  cases x with
  | none =>
    cases y with
    | none => rfl
    | some w => cases h
  | some v =>
    cases y with
    | none => cases h
    | some w => exact congrArg (·.getD "") (texto?_of_igual h)

theorem naturalDe_of_camposIguais {x y : Option JsonValue} {msg : String} {m n : ℕ}
    (h : camposIguais x y = true) (hx : naturalDe x msg = .ok m) (hy : naturalDe y msg = .ok n) :
    m = n := by
  unfold naturalDe at hx hy
  split at hx
  · split at hy
    · rename_i i _ j
      have hij : i = j := beq_iff_eq.mp h
      subst hij
      split_ifs at hx hy
      · exact (Except.ok.inj hx).symm.trans (Except.ok.inj hy)
      · cases hx
    · cases hy
  · cases hx

theorem campo_of_textoOuVazio {x : Option JsonValue} (h : textoOuVazio x ≠ "") :
    x = some (.str (textoOuVazio x)) := by
  unfold textoOuVazio at h ⊢
  cases x with
  | none => exact absurd rfl h
  | some v =>
    cases v with
    | str s => rfl
    | _ => exact absurd rfl h

end JsonValue

section

variable {cr : Cripto} {a b : Block} {v : JsonValue}

/-- The fields of a block that the accusation compares. -/
theorem blockFromJson_campos (h : blockFromJson v = .ok a) :
    naturalDe (v.campo "height") "altura inválida" = .ok a.height ∧
      a.producer = textoOuVazio (v.campo "producer") ∧ a.hash = textoOuVazio (v.campo "hash") ∧
      textoOuNulo (v.campo "producerAccount") = .ok a.producerAccount := by
  unfold blockFromJson at h
  split at h
  · obtain ⟨height, hheight, h₁⟩ := except_bind_eq_ok.mp h
    dsimp only at h₁
    split at h₁
    · obtain ⟨txs, -, h₂⟩ := except_bind_eq_ok.mp h₁
      obtain ⟨txCount, -, h₃⟩ := except_bind_eq_ok.mp h₂
      obtain ⟨pk, -, h₄⟩ := except_bind_eq_ok.mp h₃
      obtain ⟨pq, -, h₅⟩ := except_bind_eq_ok.mp h₄
      obtain ⟨root, -, h₆⟩ := except_bind_eq_ok.mp h₅
      obtain ⟨conta, hconta, h₇⟩ := except_bind_eq_ok.mp h₆
      cases h₇
      exact ⟨hheight, rfl, rfl, hconta⟩
    · cases h₁
  · cases h

theorem hash_ne_vazio (hd : cr.Digere) (h : cr.verifyBlockIntegrity a = .ok ()) : a.hash ≠ "" := by
  have hhash := hash_of_integrity h
  have hvalido : isValidHash a.hash = true := hhash ▸ hd.eavHash _
  intro hvazio
  rw [hvazio] at hvalido
  cases hvalido

/-- Two conflicting blocks, as an accusation holds them. -/
structure Evidencia (cr : Cripto) (tx : Tx) (a b : Block) : Prop where
  lida : ∃ v, tx.campo "blockA" = some v ∧ blockFromJson v = .ok a
  lida' : ∃ v, tx.campo "blockB" = some v ∧ blockFromJson v = .ok b
  integra : cr.verifyBlockIntegrity a = .ok ()
  integra' : cr.verifyBlockIntegrity b = .ok ()
  produtor : a.producer = b.producer
  altura : a.height = b.height
  hash : a.hash ≠ b.hash

theorem evidencia_eq_ok {nome : String} {u : Unit} (h : evidencia cr nome v = .ok u) :
    ∃ b, blockFromJson v = .ok b ∧ cr.verifyBlockIntegrity b = .ok () := by
  unfold evidencia at h
  split at h
  · rename_i u' hlida
    obtain ⟨b, hb, hint⟩ := except_bind_eq_ok.mp hlida
    exact ⟨b, hb, hint⟩
  · cases h

/-- An accepted accusation holds two conflicting blocks. -/
theorem evidencia_of_slash {tx : Tx} {ctx : Ctx} {s t : State} {u : Unit} (hd : cr.Digere)
    (h : slashDoubleSign cr tx ctx s = .ok u t) : ∃ a b, Evidencia cr tx a b := by
  unfold slashDoubleSign at h
  rw [get_bind_run] at h
  generalize hva : tx.campo "blockA" = va at h
  generalize hvb : tx.campo "blockB" = vb at h
  split at h
  case h_2 => cases h
  obtain ⟨⟨va, vb⟩, s₁, hlidas, h₁⟩ := bind_eq_ok.mp h
  obtain ⟨hlidas, rfl⟩ := lift_eq_ok.mp hlidas
  cases hlidas
  obtain ⟨⟨infrator, chave⟩, s₂, hinfrator, h₂⟩ := bind_eq_ok.mp h₁
  obtain ⟨hinfrator, rfl⟩ := lift_eq_ok.mp hinfrator
  obtain ⟨_, _, -, h₃⟩ := bind_eq_ok.mp h₂
  obtain ⟨_, _, -, h₄⟩ := bind_eq_ok.mp h₃
  obtain ⟨_, _, -, h₅⟩ := bind_eq_ok.mp h₄
  obtain ⟨_, _, -, h₆⟩ := bind_eq_ok.mp h₅
  obtain ⟨_, _, ha, h₇⟩ := bind_eq_ok.mp h₆
  obtain ⟨_, _, hb, -⟩ := bind_eq_ok.mp h₇
  obtain ⟨a, hlida, hinta⟩ := evidencia_eq_ok (lift_eq_ok.mp ha).1
  obtain ⟨b, hlida', hintb⟩ := evidencia_eq_ok (lift_eq_ok.mp hb).1
  unfold infratorDe at hinfrator
  obtain ⟨_, hprod, hinfrator⟩ := except_bind_eq_ok.mp hinfrator
  obtain ⟨_, halt, hinfrator⟩ := except_bind_eq_ok.mp hinfrator
  obtain ⟨_, hhash, -⟩ := except_bind_eq_ok.mp hinfrator
  have hprod := recusar_eq_ok.mp hprod
  have halt := recusar_eq_ok.mp halt
  have hhash := recusar_eq_ok.mp hhash
  rw [Bool.not_eq_true', Bool.not_eq_false] at hprod halt
  obtain ⟨haa, hap, hah, -⟩ := blockFromJson_campos hlida
  obtain ⟨hba, hbp, hbh, -⟩ := blockFromJson_campos hlida'
  refine ⟨a, b, ⟨_, hva, hlida⟩, ⟨_, hvb, hlida'⟩, hinta, hintb, ?_, ?_, fun hmesmo => hhash ?_⟩
  · rw [hap, hbp, JsonValue.textoOuVazio_of_camposIguais hprod]
  · exact JsonValue.naturalDe_of_camposIguais halt haa hba
  · have hca := JsonValue.campo_of_textoOuVazio (hah ▸ hash_ne_vazio hd hinta)
    have hcb := JsonValue.campo_of_textoOuVazio (hbh ▸ hash_ne_vazio hd hintb)
    rw [hca, hcb, ← hah, ← hbh, hmesmo]
    exact beq_self_eq_true b.hash

end

end Eav7
