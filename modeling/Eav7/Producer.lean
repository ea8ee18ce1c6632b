import Eav7.P2p

/-!
# The production timer

One tick of a node that holds a producing wallet: the tip gate, the turn of the
slot, and a block built on the local chain.
-/

namespace Eav7

open Base

namespace Producer

open Blockchain Follow

/-- The slot that is still to be filled at a time, when it is the wallet's turn. -/
def vezDe (c : Blockchain) (signer : BlockSigner) (amb : Ambiente) (lastSlot now : ℤ) : Bool :=
  match c.head with
  | none => false
  | some cabeca =>
    slotFor now ≠ lastSlot && decide (slotFor cabeca.timestamp < slotFor now) &&
      (match c.expectedProducer now, enderecoDoProdutor amb.cripto signer with
        | .ok (some esperado), .ok nosso => esperado == nosso
        | _, _ => false) &&
      decide (cabeca.timestamp < now)

/-- A tick: the block it produced, if any. Every failure of the production leaves
the slot open for the next tick. -/
def tick (amb : Ambiente) (signer : BlockSigner) (txs : List Tx) (lastSlot now : ℤ) :
    Cadeia (Option Block) := fun c =>
  if vezDe c signer amb lastSlot now then
    match produceBlock amb signer txs now none now c with
    | .ok bloco c => .ok (some bloco) c
    | .error (.erro _) c => .ok none c
    | .error (.aborta motivo) c => .error (.aborta motivo) c
  else .ok none c

/-- A tick of the production loop behind the gate of the peers. -/
def tickComPeers (amb : Ambiente) (signer : BlockSigner) (txs : List Tx) (lastSlot now : ℤ)
    (respostas : List (Option Status)) : Cadeia (Option Block) := fun c =>
  match checkPeers respostas c.height (c.head.map (·.hash)) with
  | .allow => tick amb signer txs lastSlot now c
  | .hold _ => .ok none c

end Producer
end Eav7
