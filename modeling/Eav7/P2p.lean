import Eav7.Consenso
import Eav7.Follow

/-!
# Synchronising with peers

Every cycle a node reads the tip of each peer and follows those that are ahead
or that differ at its own height: it takes the missing blocks, or looks for the
common ancestor in the last blocks and tries a reorganisation from there.
-/

namespace Eav7

open Base

namespace Blockchain

variable (c : Blockchain)

/-- The block of a height, from the window or from the disk. -/
def blockAt (height : ℕ) : Option Block :=
  if c.height < 0 ∨ c.height.toNat < height then none
  else if c.tailStart ≤ height then c.tail[height - c.tailStart]?
  else c.store.bind fun d => d.linhas[height]?

/-- The blocks from a height on, up to a limit or the first missing one. -/
def rangeAt (de : ℕ) : ℕ → List Block
  | 0 => []
  | limite + 1 =>
    match c.blockAt de with
    | none => []
    | some b => b :: rangeAt (de + 1) limite

end Blockchain

namespace P2p

open Blockchain Follow

/-! ## What a peer answers -/

/-- A peer as the cycle sees it: its `/status`, and its `/chain` from a height. -/
structure Peer where
  status : Option Status
  chain : ℕ → Falha JsonValue

/-- A block as `/chain` writes it, with the size of its line. -/
def blocoComSize (b : Block) : JsonValue :=
  match blockToJson b with
  | .map pares => .map (pares ++ [("size", .int (canonicalJsonLen (blockToJson b)))])
  | v => v

def statusDe (c : Blockchain) : Status :=
  { height := some c.height, headHash := c.head.map (·.hash) }

def chainPage (c : Blockchain) (de : ℕ) : JsonValue :=
  .map [("blocks", .list ((c.rangeAt de Config.maxChainPage).map blocoComSize)),
    ("from", .int de), ("height", .int c.height)]

/-- A peer that answers from its chain. -/
def honesto (c : Blockchain) : Peer :=
  { status := some (statusDe c), chain := fun de => .ok (chainPage c de) }

/-! ## Downloads -/

def campoStr (v : JsonValue) (chave : String) : Option String := (v.campo chave).bind (·.texto?)

/-- The blocks of a page, `none` when it has no list of blocks. -/
def blocosDaPagina (pagina : JsonValue) : Option (List JsonValue) :=
  match pagina.campo "blocks" with
  | some (.list blocos) => some blocos
  | _ => none

/-- Downloads page after page until one is short or the total is reached. -/
def fetchRange (peer : Peer) (cursor : ℕ) (baixados : List JsonValue) : Falha (List JsonValue) :=
  match peer.chain cursor with
  | .error e => .error e
  | .ok pagina =>
    match blocosDaPagina pagina with
    | none => .ok baixados
    | some blocos =>
      if blocos = [] then .ok baixados
      else if _h : blocos.length < Config.maxChainPage ∨
          Config.maxSyncBlocks ≤ (baixados ++ blocos).length then .ok (baixados ++ blocos)
      else fetchRange peer (cursor + blocos.length) (baixados ++ blocos)
termination_by Config.maxSyncBlocks - baixados.length
decreasing_by
  rw [not_or, List.length_append] at _h
  have : 0 < Config.maxChainPage := by decide
  rw [List.length_append]
  omega

/-- The highest height whose hash both chains have. -/
def commonAncestor (localHashAt : ℕ → Option String) (janela : List (ℕ × String)) : Option ℕ :=
  (janela.reverse.find? fun p => localHashAt p.1 = some p.2).map (·.1)

/-- The heights and hashes of a downloaded window. -/
def paresDaJanela (de : ℕ) (janela : List JsonValue) : List (ℕ × String) :=
  janela.zipIdx.filterMap fun e => (campoStr e.1 "hash").map fun h => (de + e.2, h)

/-- The local hashes from a height to the tip. -/
def hashesLocais (c : Blockchain) (de h : ℕ) : Option String :=
  if de ≤ h ∧ (h : ℤ) ≤ c.height then c.hashAt h else none

section

variable (amb : Ambiente) (peer : Peer) (now : ℤ)

/-- Looks for the fork in the last blocks of the peer and reorganises from it. -/
def reorgFromPeerWindow (altura : ℤ) : Cadeia Bool := do
  let de := (altura - Config.reorgWindow).toNat
  let janela ← conferir (fetchRange peer de [])
  let c ← get
  match commonAncestor (hashesLocais c de) (paresDaJanela de janela) with
  | none => return false
  | some comum =>
    if (comum : ℤ) < c.height then do
      let rabo ← conferir ((janela.drop (comum - de + 1)).mapM blockFromJson)
      match ← reorg amb comum rabo now with
      | .adotou _ => return true
      | .manteve => return false
    else return false

/-- Adds blocks until one does not convert or is refused; how many entered. -/
def estende : List JsonValue → Cadeia ℕ
  | [] => pure 0
  | cru :: crus => fun c =>
    match blockFromJson cru with
    | .error _ => .ok 0 c
    | .ok bloco =>
      match addBlock amb bloco now c with
      | .ok () c =>
        match estende crus c with
        | .ok n c => .ok (n + 1) c
        | .error e c => .error e c
      | .error (.erro _) c => .ok 0 c
      | .error (.aborta motivo) c => .error (.aborta motivo) c

/-- The downloaded blocks, when they continue this chain; how many entered. -/
def extensao (novos : List JsonValue) : Cadeia ℕ := do
  let c ← get
  match novos with
  | [] => return 0
  | primeiro :: _ =>
    if campoStr primeiro "previousHash" = c.head.map (·.hash) then estende amb now novos
    else return 0

/-- The whole chain of the peer, for a node without one or with a deep fork. -/
def desdeAGenese : Cadeia Unit := do
  let todos ← conferir (fetchRange peer 0 [])
  if todos = [] then return ()
  else do
    let blocos ← conferir (todos.mapM blockFromJson)
    let _ ← replaceChain amb blocos now
    return ()

/-- Follows a peer that is ahead. -/
def alcanca (altura : ℤ) : Cadeia Unit := do
  let novos ← conferir (fetchRange peer (altura + 1).toNat [])
  if novos = [] then desdeAGenese amb peer now
  else do
    let aplicados ← extensao amb now novos
    if 0 < aplicados then return ()
    else if ← reorgFromPeerWindow amb peer now altura then return ()
    else desdeAGenese amb peer now

def syncWithPeer (peerHeight : ℤ) (peerHead : Option String) : Cadeia Unit := do
  let c ← get
  if peerHeight < c.height then return ()
  else if peerHeight = c.height then
    match peerHead, c.head.map (·.hash) with
    | some p, some l =>
      if p = l then return ()
      else do
        let _ ← reorgFromPeerWindow amb peer now c.height
        return ()
    | _, _ => return ()
  else if c.hasGenesis ∧ 0 ≤ c.height then alcanca amb peer now c.height
  else desdeAGenese amb peer now

end

/-- One cycle over the peers; an error with one of them ends its turn only. -/
def syncOnce (amb : Ambiente) (now : ℤ) : List Peer → Cadeia Unit
  | [] => pure ()
  | peer :: peers => fun c =>
    match peer.status.bind fun s => s.height.map fun h => (h, s.headHash) with
    | none => syncOnce amb now peers c
    | some (h, head) =>
      match syncWithPeer amb peer now h head c with
      | .ok () c => syncOnce amb now peers c
      | .error (.erro _) c => syncOnce amb now peers c
      | .error (.aborta motivo) c => .error (.aborta motivo) c

end P2p
end Eav7
