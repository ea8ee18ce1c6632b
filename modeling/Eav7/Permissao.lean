import Mathlib.Data.List.Sort
import Eav7.NftTx

/-!
# Account permissions

Weighted thresholds over keys, their normalisation from JSON, and the rules for
changing a version-2 permission: what a change makes of it and who authorises it.
-/

namespace Eav7

open Base

namespace GovTx

def multisigOps : List String :=
  ["TRANSFER", "STAKE", "UNSTAKE", "TOKEN_TRANSFER", "NFT_TRANSFER", "VOTE", "SET_COMMISSION",
    "CLAIM_VOTER_REWARD", "PERMISSION_CHANGE", "GOV_PROPOSE", "GOV_VOTE"]

/-- The permission id that stands for the owner level. -/
def ownerPermissionId : ℕ := u64Max

def exigeOwner (opType : String) : Bool := opType ∈ ["GOV_PROPOSE", "GOV_VOTE", "SET_COMMISSION"]

def dados (tx : Tx) : R JsonValue :=
  match tx.data with
  | some (.map m) => .ok (.map m)
  | _ => erro "campo data inválido"

def comoI128 (v : Option JsonValue) : Option ℤ :=
  match v with
  | some (.int n) => some n
  | some (.str s) => jsBigint s
  | _ => none

def comoU64 (v : Option JsonValue) : Option ℕ :=
  (comoI128 v).bind fun n => if 0 ≤ n ∧ n < u64Limit then some n.toNat else none

def comoAmount (v : Option JsonValue) : Option Amount :=
  (comoI128 v).bind fun n => if 0 ≤ n then some n.toNat else none

/-- The fields of a JSON map. -/
def exigirMapa (v : Option JsonValue) (msg : String) : R (OrdMap String JsonValue) :=
  match v with
  | some (.map m) => .ok (mapaDe m)
  | _ => erro msg

end GovTx

namespace Permission

def eV2 : Permission → Bool
  | v1 _ => false
  | v2 .. => true

def owner? : Permission → Option Nivel
  | v1 _ => none
  | v2 owner _ _ _ _ => some owner

/-- The spending level of a permission id, with the operations it is limited to. -/
def nivelDeGasto (perm : Permission) (permissionId : ℕ) : Option (Nivel × Option (List String)) :=
  if permissionId = GovTx.ownerPermissionId then perm.owner?.map fun n => (n, none)
  else match perm with
    | v1 n => if permissionId = 0 then some (n, none) else none
    | v2 _ actives _ _ _ => actives[permissionId]?.map fun a => (a.nivel, a.operations)

def activePrimaria (perm : Permission) : Option Nivel := (perm.nivelDeGasto 0).map Prod.fst

def eChave (perm : Permission) (addr : String) : Bool :=
  match perm with
  | v1 n => n.keys.contains addr
  | v2 owner actives witness recovery _ =>
    owner.keys.contains addr || actives.any (fun a => a.nivel.keys.contains addr) ||
      witness == some addr || recovery == some addr

end Permission

/-- The weight of the signers that are keys of a level, `none` on overflow. -/
def Nivel.peso (nivel : Nivel) : List String → ℕ → Option ℕ
  | [], total => some total
  | s :: ss, total =>
    match nivel.keys.get? s with
    | none => nivel.peso ss total
    | some w => if total + w < u64Limit then nivel.peso ss (total + w) else none

def Nivel.atingeLimiar (nivel : Nivel) (signers : List String) : Bool :=
  match nivel.peso signers 0 with
  | some total => nivel.threshold ≤ total
  | none => false

def atingeLimiar (nivel : Option Nivel) (signers : List String) : Bool :=
  match nivel with
  | some n => n.atingeLimiar signers
  | none => false

namespace GovTx

section Normalization

variable (cr : Cripto)

/-- A strictly positive integer that fits 64 bits. -/
def positivoU64 (v : Option JsonValue) (msg : String) : R ℕ :=
  exigir ((comoI128 v).bind fun n => if 0 < n ∧ n < u64Limit then some n.toNat else none) msg

def normalizarKeys : List (String × JsonValue) → ℕ → R (ℕ × List (String × ℕ))
  | [], total => .ok (total, [])
  | (addr, w) :: resto, total => do
    recusar (cr.isValidAddress addr = false) "endereço de key inválido"
    let peso ← positivoU64 (some w) "peso inválido"
    recusar (u64Limit ≤ total + peso) "peso inválido"
    let (total, norm) ← normalizarKeys resto (total + peso)
    return (total, (addr, peso) :: norm)

def normalizarNivel (v : Option JsonValue) : R Nivel := do
  let p ← exigirMapa v "permissão inválida"
  let threshold ← positivoU64 (p.get? "threshold") "threshold inválido"
  let keys ← exigirMapa (p.get? "keys") "keys inválidas"
  recusar (keys.size = 0 ∨ Config.maxPermissionKeys < keys.size) "nº de keys inválido"
  let (total, norm) ← normalizarKeys cr keys.entries 0
  recusar (total < threshold) "soma dos pesos < threshold (conta ficaria travada)"
  return { threshold := threshold, keys := OrdMap.ofList norm }

def nomeActive (v : Option JsonValue) : R (Option String) :=
  match v with
  | none => .ok none
  | some .null => .ok none
  | some (.str s) =>
    if s.utf8ByteSize ≤ Config.maxPermissionName then .ok (some s)
    else erro "nome da permissão é longo demais"
  | some _ => erro "nome da permissão inválido"

def normalizarOperacoes : List JsonValue → List String → R (List String)
  | [], norm => .ok norm
  | .str nome :: ops, norm => do
    recusar (nome ∉ multisigOps) s!"operação desconhecida: {nome}"
    recusar (nome ∈ norm) "operação duplicada em operations"
    normalizarOperacoes ops (norm ++ [nome])
  | _ :: _, _ => erro "operação desconhecida"

def operacoesActive (v : Option JsonValue) : R (Option (List String)) :=
  match v with
  | none => .ok none
  | some .null => .ok none
  | some (.list ops) => do
    recusar (ops.length = 0) "operations deve ser uma lista não vazia"
    recusar (multisigOps.length < ops.length) "operations com itens demais"
    let norm ← normalizarOperacoes ops []
    recusar ("PERMISSION_CHANGE" ∈ norm)
      "PERMISSION_CHANGE não é escopável — use PERMISSION_PROPOSE"
    return some (norm.insertionSort (· ≤ ·))
  | some _ => erro "operations deve ser uma lista não vazia"

def normalizarActive (v : Option JsonValue) : R Active := do
  let nivel ← normalizarNivel cr v
  let a ← exigirMapa v "permissão inválida"
  let name ← nomeActive (a.get? "name")
  let operations ← operacoesActive (a.get? "operations")
  return { nivel := nivel, name := name, operations := operations }

def normalizarActives : List JsonValue → R (List Active)
  | [] => .ok []
  | v :: vs => do
    let active ← normalizarActive cr (some v)
    return active :: (← normalizarActives vs)

/-- The active levels given as a list, or as one value. -/
def activesBrutas (actives active : Option JsonValue) : List JsonValue :=
  match actives, active with
  | some (.list l), _ => l
  | _, some .null => []
  | _, some v => [v]
  | _, none => []

def umaChave (v : Option JsonValue) (nome : String) : R (Option String) :=
  match v with
  | none => .ok none
  | some .null => .ok none
  | some (.str s) =>
    if cr.isValidAddress s then .ok (some s) else erro s!"{nome} deve ser um endereço E7 válido"
  | some _ => erro s!"{nome} deve ser um endereço E7 válido"

def faixaDelay : String :=
  s!"delayBlocks fora da faixa ({Config.permDelayMinBlocks}..{Config.permDelayMaxBlocks})"

def delayDe (v : Option JsonValue) : R ℕ := do
  let delay ← match v with
    | none => (.ok Config.permDelayDefaultBlocks : R ℕ)
    | some .null => .ok Config.permDelayDefaultBlocks
    | v => exigir (comoU64 v) faixaDelay
  recusar (delay < Config.permDelayMinBlocks ∨ Config.permDelayMaxBlocks < delay) faixaDelay
  return delay

def normalizarPermissaoV2 (v : Option JsonValue) : R Permission := do
  let p ← exigirMapa v "permissão inválida"
  let owner ← normalizarNivel cr (p.get? "owner")
  let brutas := activesBrutas (p.get? "actives") (p.get? "active")
  recusar (brutas.length = 0) "permissão precisa de ao menos uma active"
  recusar (Config.maxActivePermissions < brutas.length)
    s!"no máximo {Config.maxActivePermissions} permissões active"
  let actives ← normalizarActives cr brutas
  let witness ← umaChave cr (p.get? "witness") "witness"
  let recovery ← umaChave cr (p.get? "recovery") "recovery"
  let delay ← delayDe (p.get? "delayBlocks")
  return .v2 owner actives witness recovery delay

def idActive (v : Option JsonValue) : R ℕ := do
  let id ← match v with
    | none => (.ok 0 : R ℤ)
    | some .null => .ok 0
    | v => exigir (comoI128 v) "id de active inválido"
  recusar (id < 0 ∨ (Config.maxActivePermissions : ℤ) ≤ id) "id de active inválido"
  return id.toNat

def chaveOuNula (v : Option JsonValue) (level : String) : R (Option String) :=
  match v with
  | some .null => .ok none
  | some (.str s) =>
    if cr.isValidAddress s then .ok (some s)
    else erro s!"{level} deve ser um endereço E7 válido ou null"
  | _ => erro s!"{level} deve ser um endereço E7 válido ou null"

def normalizarMudanca (v : Option JsonValue) : R Mudanca := do
  let c ← exigirMapa v "mudança inválida"
  let level := (texto (c.get? "level")).getD ""
  if level = "owner" then
    return .owner (← normalizarNivel cr (c.get? "value"))
  else if level = "active" then
    let id ← idActive (c.get? "id")
    match c.get? "value" with
    | some .null => return .active id none
    | outro => return .active id (some (← normalizarActive cr outro))
  else if level = "witness" then
    return .witness (← chaveOuNula cr (c.get? "value") level)
  else if level = "recovery" then
    return .recovery (← chaveOuNula cr (c.get? "value") level)
  else if level = "delay" then
    let d ← exigir (comoU64 (c.get? "value")) "delayBlocks fora da faixa"
    recusar (d < Config.permDelayMinBlocks ∨ Config.permDelayMaxBlocks < d)
      "delayBlocks fora da faixa"
    return .delay d
  else erro s!"nível de permissão desconhecido: {level}"

end Normalization

/-- The active levels after one change. -/
def mudaActives (actives : List Active) (id : ℕ) (valor : Option Active) : R (List Active) :=
  match valor with
  | none => .ok (actives.eraseIdx id)
  | some v =>
    if id < actives.length then .ok (actives.set id v)
    else if Config.maxActivePermissions ≤ actives.length then
      erro "limite de permissões active atingido"
    else .ok (actives ++ [v])

/-- The permission a change would leave, refused when it would lock the account. -/
def simularMudanca (perm : Permission) (mudanca : Mudanca) : R Permission := do
  match perm with
  | .v1 _ => erro "conta não usa permissões v2"
  | .v2 owner actives witness recovery delayBlocks =>
    let owner := match mudanca with | .owner n => n | _ => owner
    let witness := match mudanca with | .witness w => w | _ => witness
    let recovery := match mudanca with | .recovery r => r | _ => recovery
    let delayBlocks := match mudanca with | .delay d => d | _ => delayBlocks
    let actives ← match mudanca with
      | .active id valor => mudaActives actives id valor
      | _ => (.ok actives : R (List Active))
    recusar (owner.keys.size = 0) "configuração deixaria a conta sem owner"
    recusar (actives.length = 0) "configuração deixaria a conta sem active"
    recusar (actives.any fun a => a.nivel.keys.size == 0) "active sem chaves"
    return .v2 owner actives witness recovery delayBlocks

def temRecovery (perm : Permission) (signers : List String) : Bool :=
  match perm with
  | .v2 _ _ _ (some r) _ => signers.contains r
  | _ => false

/-- Which signatures authorise a change: the owner for the active levels, the
witness and the delay; the primary active with the recovery key for the owner;
owner and primary active together for the recovery key. -/
def autorizaMudanca (perm : Permission) (mudanca : Mudanca) (signers : List String) : Bool :=
  match mudanca with
  | .active _ _ => Eav7.atingeLimiar perm.owner? signers
  | .witness _ => Eav7.atingeLimiar perm.owner? signers
  | .delay _ => Eav7.atingeLimiar perm.owner? signers
  | .owner _ => Eav7.atingeLimiar perm.activePrimaria signers && temRecovery perm signers
  | .recovery _ =>
    Eav7.atingeLimiar perm.owner? signers && Eav7.atingeLimiar perm.activePrimaria signers

end GovTx
end Eav7
