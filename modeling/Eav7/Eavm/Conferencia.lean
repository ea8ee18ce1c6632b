import Eav7.Base.Fallible
import Eav7.Eavm.Envelope

/-!
# What the verification of an envelope checks

An accepted envelope agrees, field by field, with what its signed bytes say.
-/

namespace Eav7

open Base Eavm

variable {cr : Cripto} {tx : Tx} {parsed : ParsedTx}

structure Conferido (cr : Cripto) (tx : Tx) (parsed : ParsedTx) : Prop where
  protocol : tx.protocol = Config.protocol
  scheme : tx.scheme = eavmScheme
  raw : verifyRaw (rawDe tx) = .ok ()
  lido : decodeRawTransaction cr (rawDe tx) = .ok parsed
  checado : checkParsed cr parsed = .ok ()
  tipo : tx.txType = (classify cr parsed).asStr
  taxa : tx.fee = toString (classify cr parsed).fee ∨ tx.fee = "0"
  de : cr.eavmToE7 parsed.de = some tx.de
  destino : verifyDestinoEavm cr tx parsed (classify cr parsed) = .ok ()
  contrato : verifyContrato cr tx parsed (classify cr parsed) = .ok ()
  amount : tx.amount = toString (parsed.value / Config.eavmWeiPerE7)
  nonce : nonceConfere tx.nonce parsed.nonce = true
  timestamp : 0 < tx.timestamp ∧ tx.timestamp ≤ maxSafeInteger
  metadados : verifyMetadados tx parsed (classify cr parsed) = .ok ()
  id : tx.id = some (cr.eavHashOne s!"EAV7-EAVM-TX:{rawDe tx}")

theorem embrulha_eq_ok {α : Type} {x : Falha α} {a : α} : embrulha x = .ok a ↔ x = .ok a := by
  unfold embrulha
  cases x with
  | ok b => rfl
  | error e => exact iff_of_false nofun nofun

theorem falharSe_ne {α : Type} [DecidableEq α] {a b : α} {msg : String} {u : Unit} :
    falharSe (a ≠ b) msg = .ok u ↔ a = b :=
  falharSe_eq_ok.trans not_not

/-- The envelope is accepted exactly when it agrees with what its raw text is read as. -/
theorem verifyEavmEnvelope_iff :
    verifyEavmEnvelope cr tx = .ok () ↔ ∃ parsed, Conferido cr tx parsed := by
  unfold verifyEavmEnvelope
  constructor
  · intro h
    obtain ⟨_, hprotocol, h⟩ := except_bind_eq_ok.mp h
    obtain ⟨_, hscheme, h⟩ := except_bind_eq_ok.mp h
    obtain ⟨_, hraw, h⟩ := except_bind_eq_ok.mp h
    obtain ⟨parsed, hlido, h⟩ := except_bind_eq_ok.mp h
    obtain ⟨_, hchecado, h⟩ := except_bind_eq_ok.mp h
    obtain ⟨_, htipo, h⟩ := except_bind_eq_ok.mp h
    obtain ⟨_, htaxa, h⟩ := except_bind_eq_ok.mp h
    dsimp only at h
    split at h
    · cases h
    · rename_i de hde
      obtain ⟨_, hmesmo, h⟩ := except_bind_eq_ok.mp h
      obtain ⟨_, hdestino, h⟩ := except_bind_eq_ok.mp h
      obtain ⟨_, hcontrato, h⟩ := except_bind_eq_ok.mp h
      obtain ⟨_, hamount, h⟩ := except_bind_eq_ok.mp h
      obtain ⟨_, hnonce, h⟩ := except_bind_eq_ok.mp h
      obtain ⟨_, hts, h⟩ := except_bind_eq_ok.mp h
      obtain ⟨_, hmetadados, hid⟩ := except_bind_eq_ok.mp h
      have hts := not_or.mp (falharSe_eq_ok.mp hts)
      refine ⟨parsed, ⟨falharSe_ne.mp hprotocol, falharSe_ne.mp hscheme, hraw,
        embrulha_eq_ok.mp hlido, hchecado, falharSe_ne.mp htipo, ?_, ?_, hdestino, hcontrato,
        falharSe_ne.mp hamount, ?_, ⟨not_le.mp hts.1, not_lt.mp hts.2⟩, hmetadados,
        falharSe_ne.mp hid⟩⟩
      · rcases not_and_or.mp (falharSe_eq_ok.mp htaxa) with h | h
        · exact .inl (not_not.mp h)
        · exact .inr (not_not.mp h)
      · rw [hde, falharSe_ne.mp hmesmo]
      · exact Bool.eq_true_of_not_eq_false (falharSe_eq_ok.mp hnonce)
  · rintro ⟨parsed, h⟩
    have htaxa : ¬ (tx.fee ≠ toString (classify cr parsed).fee ∧ tx.fee ≠ "0") :=
      fun ⟨htabela, hzero⟩ => h.taxa.elim htabela hzero
    refine except_bind_eq_ok.mpr ⟨(), falharSe_ne.mpr h.protocol, ?_⟩
    refine except_bind_eq_ok.mpr ⟨(), falharSe_ne.mpr h.scheme, ?_⟩
    refine except_bind_eq_ok.mpr ⟨(), h.raw, ?_⟩
    refine except_bind_eq_ok.mpr ⟨parsed, embrulha_eq_ok.mpr h.lido, ?_⟩
    refine except_bind_eq_ok.mpr ⟨(), h.checado, ?_⟩
    refine except_bind_eq_ok.mpr ⟨(), falharSe_ne.mpr h.tipo, ?_⟩
    refine except_bind_eq_ok.mpr ⟨(), falharSe_eq_ok.mpr htaxa, ?_⟩
    rw [h.de]
    refine except_bind_eq_ok.mpr ⟨(), falharSe_ne.mpr rfl, ?_⟩
    refine except_bind_eq_ok.mpr ⟨(), h.destino, except_bind_eq_ok.mpr ⟨(), h.contrato, ?_⟩⟩
    refine except_bind_eq_ok.mpr ⟨(), falharSe_ne.mpr h.amount, ?_⟩
    refine except_bind_eq_ok.mpr ⟨(), falharSe_eq_ok.mpr (ne_false_of_eq_true h.nonce), ?_⟩
    refine except_bind_eq_ok.mpr ⟨(), falharSe_eq_ok.mpr ?_, ?_⟩
    · exact not_or.mpr ⟨not_le_of_gt h.timestamp.1, not_lt_of_ge h.timestamp.2⟩
    · exact except_bind_eq_ok.mpr ⟨(), h.metadados, falharSe_ne.mpr h.id⟩

/-- The raw text is read in one way. -/
theorem Conferido.unico {outro : ParsedTx} (h : Conferido cr tx parsed)
    (h' : decodeRawTransaction cr (rawDe tx) = .ok outro) : outro = parsed :=
  Except.ok.inj (h'.symm.trans h.lido)

end Eav7
