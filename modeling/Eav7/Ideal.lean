import Eav7.Base.Keccak
import Eav7.Consenso

/-!
# An environment with idealised keys

The hashes are the real ones. A key is 24 bytes and its own signature, so that
blocks signed by any number of producers can be built and verified. No Ethereum
envelope is accepted.
-/

namespace Eav7

open Base

def tamanhoChave : ℕ := 24

def criptoIdeal : Cripto where
  sha3 := Keccak.sha3
  keccak256 := Keccak.keccak256
  chaveEcdsa chave := chave.length == tamanhoChave
  chavePq chave := chave.length == tamanhoChave
  verificaEcdsa chave _ assinatura := assinatura == chave
  verificaPq chave _ assinatura := assinatura == chave
  recupera _ _ _ _ := none
  toLowercase := String.toLower
  toUppercase := String.toUpper

/-- Hashes of the right length and a curve with the point at infinity only. -/
def precompiladosIdeais : Eavm.Precompilados where
  sha256 _ := List.replicate 32 0
  sha256_length _ := List.length_replicate
  ripemd160 _ := List.replicate 20 0
  g1OnCurve _ := false
  g1Add _ _ := none
  g1Mul _ _ := none
  g2OnCurve _ := false
  g2InSubgroup _ := false
  multiPairing _ _ := true

def ambienteIdeal : Ambiente where
  cripto := criptoIdeal
  precompilados := precompiladosIdeais
  verifyEavmEnvelope _ := falhar "transação EAVM inválida"

/-! ## Evaluation -/

/-- The same hashes, computed in fewer operations. -/
def criptoDireta : Cripto :=
  { criptoIdeal with sha3 := Keccak.sha3Direto, keccak256 := Keccak.keccak256Direto }

theorem criptoIdeal_eq : criptoIdeal = criptoDireta := by
  unfold criptoDireta
  rw [Keccak.sha3Direto_eq, Keccak.keccak256Direto_eq]
  rfl

def ambienteDireto : Ambiente := { ambienteIdeal with cripto := criptoDireta }

theorem ambienteIdeal_eq : ambienteIdeal = ambienteDireto := by
  unfold ambienteDireto
  rw [← criptoIdeal_eq]
  rfl

/-! ## Keys -/

def bytesIdeais (n : ℕ) : Bytes := List.replicate tamanhoChave (UInt8.ofNat n)

/-- The key of a number, in its compact form. -/
def chaveIdeal (n : ℕ) : String := base64Encode (bytesIdeais n)

end Eav7
