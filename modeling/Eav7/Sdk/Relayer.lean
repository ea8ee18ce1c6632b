import Eav7.Coercao
import Eav7.Contracts

/-!
# The relayer of the bridge

A cycle drains the channel of deposits, one `BRIDGE_IN` each, then pays the locked transfers
outside and submits their `BRIDGE_SETTLE`. A payout that fails is tried again; a deposit whose
`BRIDGE_IN` fails has already left the channel. What was paid is remembered by the process
only.
-/

namespace Eav7.Sdk

structure Transferencia where
  id : String
  origem : String
  targetChain : String
  targetAddress : String
  amount : String
  token : Option String

structure Deposito where
  cadeia : String
  sourceTxHash : String
  para : String
  amount : String
  token : Option String
  deriving DecidableEq

structure TxSpec where
  tipo : String
  amount : ℕ
  nonce : ℤ
  timestamp : ℤ
  para : Option String
  dados : JsonValue

inductive ErroCliente
  | transacao (texto : String)
  | api (status : ℕ) (mensagem : String)
  | transporte (texto : String)
  | resposta (texto : String)

structure Submissao where
  accepted : Bool
  reason : Option String

/-- How a send ends: an answer of the node, or an error at the client, when the node may have
taken the transaction all the same. -/
inductive Resposta
  | dada (r : Submissao)
  | perdida (e : ErroCliente) (aceita : Bool)

def Resposta.aceita : Resposta → Bool
  | .dada r => r.accepted
  | .perdida _ aceita => aceita

/-- What is outside the relayer during one cycle: the clock, the wallet and the node at each
send, and the adapters at each payout, with what they announce in the meantime. -/
structure Mundo where
  agora : ℕ → ℤ
  proximoNonce : ℕ → Except ErroCliente ℤ
  montar : ℕ → TxSpec → Except ErroCliente Unit
  enviar : ℕ → TxSpec → Resposta
  travadas : Except ErroCliente (List Transferencia)
  payout : ℕ → Transferencia → Except String (Option String)
  anuncia : ℕ → List Deposito

structure Relayer where
  proximoNonce : Option ℤ := none
  liquidando : List String := []
  adaptadores : List String
  depositos : List Deposito := []

/-! ## Sends -/

section

variable (m : Mundo)

/-- The nonce of a send: the reserved one, or what the node says. -/
def nonceDoEnvio (k : ℕ) : Option ℤ → Except ErroCliente ℤ
  | some n => .ok n
  | none => m.proximoNonce k

/-- What a send gives back, the reservation it leaves, and whether the node has the
transaction. -/
structure Envio where
  resultado : Except ErroCliente TxSpec
  reserva : Option ℤ
  aceita : Bool

def enviarReservando (k : ℕ) (reserva : Option ℤ) (monta : ℤ → TxSpec) : Envio :=
  match nonceDoEnvio m k reserva with
  | .error e => ⟨.error e, reserva, false⟩
  | .ok nonce =>
    let tx := monta nonce
    match m.montar k tx with
    | .error e => ⟨.error e, reserva, false⟩
    | .ok _ =>
      match m.enviar k tx with
      | .dada r =>
        if r.accepted then ⟨.ok tx, some (nonce + 1), true⟩
        else ⟨.error (.api 400 (r.reason.getD "transação recusada")), none, false⟩
      | .perdida e aceita => ⟨.error e, none, aceita⟩

def bridgeIn (d : Deposito) (amount : ℕ) (timestamp nonce : ℤ) : TxSpec :=
  { tipo := "BRIDGE_IN"
    amount, nonce, timestamp
    para := some d.para
    dados := .map [("sourceChain", .str d.cadeia), ("sourceTxHash", .str d.sourceTxHash),
      ("token", d.token.elim .null .str)] }

def liberarEntrada (k : ℕ) (reserva : Option ℤ) (d : Deposito) : Envio :=
  match parseU128 d.amount with
  | none => ⟨.error (.transacao s!"valor de depósito inválido: {d.amount}"), reserva, false⟩
  | some amount => enviarReservando m k reserva (bridgeIn d amount (m.agora k))

/-- The drain of the channel: the nonce it leaves and the deposits whose `BRIDGE_IN` the node
took. Each deposit leaves the channel before its send. -/
def drena : ℕ → Option ℤ → List Deposito → Option ℤ × List Deposito
  | _, reserva, [] => (reserva, [])
  | k, reserva, d :: fila =>
    let envio := liberarEntrada m k reserva d
    let resto := drena (k + 1) envio.reserva fila
    (resto.1, if envio.aceita then d :: resto.2 else resto.2)

/-- The node and the wallet let the `BRIDGE_IN` of a deposit through at a send. -/
def Serve (k : ℕ) (reserva : Option ℤ) (d : Deposito) : Prop :=
  ∃ amount nonce, parseU128 d.amount = some amount ∧ nonceDoEnvio m k reserva = .ok nonce ∧
    m.montar k (bridgeIn d amount (m.agora k) nonce) = .ok () ∧
    (m.enviar k (bridgeIn d amount (m.agora k) nonce)).aceita = true

variable {m} {k : ℕ} {reserva : Option ℤ} {d : Deposito}

theorem aceita_enviarReservando {monta : ℤ → TxSpec} :
    (enviarReservando m k reserva monta).aceita = true ↔ ∃ nonce,
      nonceDoEnvio m k reserva = .ok nonce ∧ m.montar k (monta nonce) = .ok () ∧
        (m.enviar k (monta nonce)).aceita = true := by
  unfold enviarReservando
  cases hnonce : nonceDoEnvio m k reserva with
  | error e => exact ⟨nofun, fun ⟨_, h, _⟩ => nomatch h⟩
  | ok nonce =>
    dsimp only
    cases hmontar : m.montar k (monta nonce) with
    | error e =>
      refine ⟨nofun, ?_⟩
      rintro ⟨n, hn, hm, -⟩
      cases hn
      rw [hmontar] at hm
      cases hm
    | ok u =>
      dsimp only
      have hresposta : (∃ n, (.ok nonce : Except ErroCliente ℤ) = .ok n ∧
          m.montar k (monta n) = .ok () ∧ (m.enviar k (monta n)).aceita = true) ↔
          (m.enviar k (monta nonce)).aceita = true := by
        constructor
        · rintro ⟨n, hn, -, ha⟩
          cases hn
          exact ha
        · exact fun ha => ⟨nonce, rfl, hmontar, ha⟩
      rw [hresposta]
      cases henviar : m.enviar k (monta nonce) with
      | dada r =>
        dsimp only
        unfold Resposta.aceita
        split_ifs with ha
        · simp only [ha]
        · simp only [ha, Bool.false_eq_true]
      | perdida e aceita => exact Iff.rfl

theorem aceita_liberarEntrada :
    (liberarEntrada m k reserva d).aceita = true ↔ Serve m k reserva d := by
  unfold liberarEntrada Serve
  cases parseU128 d.amount with
  | none => exact ⟨nofun, fun ⟨_, _, h, _⟩ => nomatch h⟩
  | some amount =>
    dsimp only
    rw [aceita_enviarReservando]
    constructor
    · rintro ⟨nonce, h⟩
      exact ⟨amount, nonce, rfl, h⟩
    · rintro ⟨_, nonce, hamount, h⟩
      cases hamount
      exact ⟨nonce, h⟩

/-- What the node takes is what it serves, each deposit with the nonce that the sends before
it left. -/
theorem mem_drena {fila : List Deposito} : d ∈ (drena m k reserva fila).2 ↔ ∃ i,
    fila[i]? = some d ∧ Serve m (k + i) (drena m k reserva (fila.take i)).1 d := by
  induction fila generalizing k reserva with
  | nil => exact ⟨nofun, fun ⟨_, h, _⟩ => nomatch h⟩
  | cons e fila ih =>
    have hresto : d ∈ (drena m (k + 1) (liberarEntrada m k reserva e).reserva fila).2 ↔ ∃ i,
        (e :: fila)[i + 1]? = some d ∧
          Serve m (k + (i + 1)) (drena m k reserva ((e :: fila).take (i + 1))).1 d := by
      rw [ih]
      refine exists_congr fun i => and_congr Iff.rfl ?_
      rw [Nat.add_assoc, Nat.add_comm 1 i]
      exact Iff.rfl
    have hmem : d ∈ (drena m k reserva (e :: fila)).2 ↔ (e = d ∧ Serve m k reserva e) ∨
        d ∈ (drena m (k + 1) (liberarEntrada m k reserva e).reserva fila).2 := by
      rw [← aceita_liberarEntrada]
      change d ∈ (if (liberarEntrada m k reserva e).aceita = true then _ else _) ↔ _
      split_ifs with ha
      · rw [List.mem_cons, eq_comm, and_iff_left ha]
      · exact ⟨.inr, fun h => h.resolve_left fun hd => ha hd.2⟩
    rw [hmem, hresto]
    constructor
    · rintro (⟨rfl, hserve⟩ | ⟨i, hi⟩)
      · exact ⟨0, rfl, hserve⟩
      · exact ⟨i + 1, hi⟩
    · rintro ⟨i, hi, hserve⟩
      cases i with
      | zero =>
        cases hi
        exact .inl ⟨rfl, hserve⟩
      | succ i => exact .inr ⟨i, hi, hserve⟩

variable (m)

/-! ## Payouts -/

/-- What the loop over the transfers carries. -/
structure Laco where
  reserva : Option ℤ
  liquidando : List String
  pagos : List String
  anunciados : List Deposito
  liquidadas : ℕ

def bridgeSettle (t : Transferencia) (externo : Option String) (timestamp nonce : ℤ) : TxSpec :=
  { tipo := "BRIDGE_SETTLE"
    amount := 0
    nonce, timestamp
    para := none
    dados := .map [("transferId", .str t.id), ("externalTxHash", externo.elim .null .str)] }

/-- The body of the loop for the transfer at a position, whose send is the `k`-th. -/
def pagaUma (adaptadores : List String) (k p : ℕ) (l : Laco) (t : Transferencia) : Laco :=
  if ¬ adaptadores.any fun a => minusculas a = minusculas t.targetChain then l
  else if t.id ∈ l.liquidando then l
  else
    let l := { l with anunciados := l.anunciados ++ m.anuncia p }
    match m.payout p t with
    -- the mark goes away, so that a later cycle tries again
    | .error _ => l
    | .ok externo =>
      let l := { l with liquidando := t.id :: l.liquidando, pagos := t.id :: l.pagos }
      let envio := enviarReservando m k l.reserva (bridgeSettle t externo (m.agora k))
      match envio.resultado with
      | .ok _ => { l with reserva := envio.reserva, liquidadas := l.liquidadas + 1 }
      -- paid and not settled: the mark stays
      | .error _ => { l with reserva := envio.reserva }

def pagaTodas (adaptadores : List String) (k : ℕ) : ℕ → Laco → List Transferencia → Laco
  | _, l, [] => l
  | p, l, t :: ts => pagaTodas adaptadores k (p + 1) (pagaUma m adaptadores (k + p) p l t) ts

/-- The chain of a transfer has an adapter here. -/
def Plugada (adaptadores : List String) (t : Transferencia) : Prop :=
  (adaptadores.any fun a => minusculas a = minusculas t.targetChain) = true

/-- The adapter pays the transfer at a position. -/
def Paga (adaptadores : List String) (p : ℕ) (t : Transferencia) : Prop :=
  Plugada adaptadores t ∧ ∃ externo, m.payout p t = .ok externo

variable {m} {adaptadores : List String} {p : ℕ} {l : Laco} {t : Transferencia}

/-- What the body does to the marks and to what was paid: a transfer that has no mark and that
the adapter pays gets both. -/
theorem pagaUma_cases :
    ((t.id ∈ l.liquidando ∨ ¬ Paga m adaptadores p t) ∧
      (pagaUma m adaptadores k p l t).liquidando = l.liquidando ∧
      (pagaUma m adaptadores k p l t).pagos = l.pagos) ∨
    (t.id ∉ l.liquidando ∧ Paga m adaptadores p t ∧
      (pagaUma m adaptadores k p l t).liquidando = t.id :: l.liquidando ∧
      (pagaUma m adaptadores k p l t).pagos = t.id :: l.pagos) := by
  unfold pagaUma
  split_ifs with hplugada hmarcada
  · exact .inl ⟨.inl hmarcada, rfl, rfl⟩
  · dsimp only
    cases hpayout : m.payout p t with
    | error e =>
      refine .inl ⟨.inr ?_, rfl, rfl⟩
      rintro ⟨-, externo, h⟩
      rw [hpayout] at h
      cases h
    | ok externo =>
      refine .inr ⟨hmarcada, ⟨hplugada, externo, hpayout⟩, ?_⟩
      dsimp only
      split
      · exact ⟨rfl, rfl⟩
      · exact ⟨rfl, rfl⟩
  · exact .inl ⟨.inr fun h => hplugada h.1, rfl, rfl⟩

/-- In front of what was paid before, the transfers that a cycle pays: none was paid before,
unless its mark was lost. -/
structure Laco.SemRepetir (l : Laco) (antes : List String) : Prop where
  marcados : ∀ id ∈ l.pagos, id ∈ l.liquidando
  unicos : (l.pagos ++ antes).Nodup

theorem Laco.SemRepetir.pagaUma {antes : List String} (h : l.SemRepetir antes)
    (ht : Paga m adaptadores p t → t.id ∈ antes → t.id ∈ l.liquidando) :
    (pagaUma m adaptadores k p l t).SemRepetir antes := by
  rcases pagaUma_cases (m := m) (k := k) with ⟨-, hmarcas, hpagos⟩ | ⟨hnova, hpaga, hmarcas, hpagos⟩
  · refine ⟨?_, ?_⟩
    · rw [hmarcas, hpagos]
      exact h.marcados
    · rw [hpagos]
      exact h.unicos
  · refine ⟨?_, ?_⟩
    · rw [hmarcas, hpagos]
      intro id hid
      rcases List.mem_cons.mp hid with rfl | hid
      · exact List.mem_cons_self
      · exact List.mem_cons_of_mem _ (h.marcados id hid)
    · rw [hpagos, List.cons_append, List.nodup_cons, List.mem_append]
      refine ⟨?_, h.unicos⟩
      rintro (hid | hid)
      · exact hnova (h.marcados _ hid)
      · exact hnova (ht hpaga hid)

theorem liquidando_pagaUma {id : String} (h : id ∈ l.liquidando) :
    id ∈ (pagaUma m adaptadores k p l t).liquidando := by
  rcases pagaUma_cases (m := m) (k := k) with ⟨-, hmarcas, -⟩ | ⟨-, -, hmarcas, -⟩
  · rw [hmarcas]
    exact h
  · rw [hmarcas]
    exact List.mem_cons_of_mem _ h

theorem Laco.SemRepetir.pagaTodas {antes : List String} {ts : List Transferencia}
    (h : l.SemRepetir antes) (hts : ∀ i t, ts[i]? = some t → Paga m adaptadores (p + i) t →
      t.id ∈ antes → t.id ∈ l.liquidando) :
    (pagaTodas m adaptadores k p l ts).SemRepetir antes := by
  induction ts generalizing p l with
  | nil => exact h
  | cons t ts ih =>
    refine ih (h.pagaUma (hts 0 t rfl)) fun i u hu hpaga hid => ?_
    refine liquidando_pagaUma (hts (i + 1) u hu ?_ hid)
    rwa [Nat.add_assoc, Nat.add_comm 1 i] at hpaga

theorem pagos_pagaUma {id : String} (h : id ∈ l.pagos) :
    id ∈ (pagaUma m adaptadores k p l t).pagos := by
  rcases pagaUma_cases (m := m) (k := k) with ⟨-, -, hpagos⟩ | ⟨-, -, -, hpagos⟩
  · rw [hpagos]
    exact h
  · rw [hpagos]
    exact List.mem_cons_of_mem _ h

theorem pagos_pagaTodas {id : String} {ts : List Transferencia} (h : id ∈ l.pagos) :
    id ∈ (pagaTodas m adaptadores k p l ts).pagos := by
  induction ts generalizing p l with
  | nil => exact h
  | cons t ts ih => exact ih (pagos_pagaUma h)

/-- What the adapter pays had its mark before the loop, or the loop pays it. -/
theorem pagos_of_paga {i : ℕ} {ts : List Transferencia} (ht : ts[i]? = some t)
    (hpaga : Paga m adaptadores (p + i) t) :
    t.id ∈ l.liquidando ∨ t.id ∈ (pagaTodas m adaptadores k p l ts).pagos := by
  induction ts generalizing p l i with
  | nil => cases ht
  | cons u ts ih =>
    cases i with
    | zero =>
      cases ht
      rw [Nat.add_zero] at hpaga
      rcases pagaUma_cases (m := m) (k := k + p) with ⟨hnao, -⟩ | ⟨-, -, -, hpagos⟩
      · exact .inl (hnao.resolve_right fun h => h hpaga)
      · refine .inr ?_
        change t.id ∈ (pagaTodas m adaptadores k (p + 1) (pagaUma m adaptadores _ p l t) ts).pagos
        refine pagos_pagaTodas ?_
        rw [hpagos]
        exact List.mem_cons_self
    | succ i =>
      rw [← Nat.add_assoc, Nat.add_right_comm] at hpaga
      rcases ih (l := pagaUma m adaptadores (k + p) p l u) ht hpaga with hmarca | hpago
      · rcases pagaUma_cases (m := m) (k := k + p) with ⟨-, hmarcas, -⟩ | ⟨-, -, hmarcas, hpagos⟩
        · rw [hmarcas] at hmarca
          exact .inl hmarca
        · rw [hmarcas] at hmarca
          rcases List.mem_cons.mp hmarca with hid | hmarca
          · refine .inr ?_
            change t.id ∈ (pagaTodas m adaptadores k (p + 1) (pagaUma m adaptadores _ p l u) ts).pagos
            refine pagos_pagaTodas ?_
            rw [hpagos, hid]
            exact List.mem_cons_self
          · exact .inl hmarca
      · exact .inr hpago

/-- The loop pays nothing that was paid before if and only if each transfer that the adapter
pays, and that was paid before, has its mark. -/
theorem nodup_pagaTodas {antes : List String} {ts : List Transferencia}
    (hmarcados : ∀ id ∈ l.pagos, id ∈ l.liquidando) (hunicos : (l.pagos ++ antes).Nodup) :
    ((pagaTodas m adaptadores k p l ts).pagos ++ antes).Nodup ↔ ∀ i t, ts[i]? = some t →
      Paga m adaptadores (p + i) t → t.id ∈ antes → t.id ∈ l.liquidando := by
  constructor
  · intro h i t ht hpaga hid
    refine (pagos_of_paga (k := k) ht hpaga).resolve_right fun hpago => ?_
    exact (List.nodup_append'.mp h).2.2 hpago hid
  · exact fun hts => (Laco.SemRepetir.pagaTodas ⟨hmarcados, hunicos⟩ hts).unicos

variable (m)

/-- What a cycle leaves. -/
structure Saida where
  relayer : Relayer
  aceitos : List Deposito
  pagos : List String
  anunciados : List Deposito
  resultado : Except ErroCliente ℕ

namespace Relayer

def ciclo (r : Relayer) : Saida :=
  let drenado := drena m 0 r.proximoNonce r.depositos
  let vazio : Relayer := { r with proximoNonce := drenado.1, depositos := [] }
  match m.travadas with
  | .error e => ⟨vazio, drenado.2, [], [], .error e⟩
  | .ok travadas =>
    let l := pagaTodas m r.adaptadores r.depositos.length 0
      ⟨drenado.1, r.liquidando, [], [], 0⟩ travadas
    ⟨{ vazio with
        proximoNonce := l.reserva, liquidando := l.liquidando, depositos := l.anunciados },
      drenado.2, l.pagos, l.anunciados, .ok l.liquidadas⟩

end Relayer

end

/-! ## Runs -/

/-- Adapters announce deposits; a cycle runs; or the process stops in the middle of a cycle,
after so many of its transfers, and is started again. -/
inductive Evento
  | anuncia (ds : List Deposito)
  | ciclo (m : Mundo)
  | para (m : Mundo) (n : ℕ)

/-- The relayer, and what happened so far: the deposits announced, the ones whose `BRIDGE_IN`
the node accepted and the transfers paid outside. -/
structure Situacao where
  relayer : Relayer
  anunciados : List Deposito := []
  aceitos : List Deposito := []
  pagos : List String := []

namespace Situacao

/-- The cycle that stops is the cycle over the first transfers, and nothing of the process
survives it. -/
def passo (s : Situacao) : Evento → Situacao
  | .anuncia ds =>
    { s with
      relayer := { s.relayer with depositos := s.relayer.depositos ++ ds }
      anunciados := s.anunciados ++ ds }
  | .ciclo m =>
    let c := s.relayer.ciclo m
    ⟨c.relayer, s.anunciados ++ c.anunciados, c.aceitos ++ s.aceitos, c.pagos ++ s.pagos⟩
  | .para m n =>
    let c := s.relayer.ciclo { m with travadas := m.travadas.map (List.take n) }
    ⟨{ adaptadores := s.relayer.adaptadores }, s.anunciados ++ c.anunciados,
      c.aceitos ++ s.aceitos, c.pagos ++ s.pagos⟩

def roda (s : Situacao) (es : List Evento) : Situacao := es.foldl passo s

/-- A relayer just started. -/
def inicio (adaptadores : List String) : Situacao := ⟨{ adaptadores }, [], [], []⟩

/-! ### Deposits -/

/-- A node and a wallet that take everything, with this list of locked transfers. -/
def mundoDeTeste (travadas : List Transferencia) : Mundo where
  agora _ := 0
  proximoNonce _ := .ok 0
  montar _ _ := .ok ()
  enviar _ _ := .dada ⟨true, none⟩
  travadas := .ok travadas
  payout _ _ := .ok none
  anuncia _ := []

def depositoDeTeste : Deposito := ⟨"LOOPBACK", "0xaa", "E7DESTINO", "5", none⟩

def BemFormado (d : Deposito) : Prop := (parseU128 d.amount).isSome

section

-- whichever deposits count as well formed
variable (bom : Deposito → Prop)

/-- Each well-formed deposit that was announced was taken by the node or is still pending. -/
def SemPerda (s : Situacao) : Prop :=
  ∀ d ∈ s.anunciados, bom d → d ∈ s.aceitos ∨ d ∈ s.relayer.depositos

/-- The sends of a cycle serve each well-formed deposit of the channel that the node does not
have yet. -/
def Atende (m : Mundo) (s : Situacao) : Prop :=
  ∀ d ∈ s.relayer.depositos, bom d → d ∈ s.aceitos ∨ ∃ i, s.relayer.depositos[i]? = some d ∧
    Serve m i (drena m 0 s.relayer.proximoNonce (s.relayer.depositos.take i)).1 d

/-- No process stops, and each cycle serves what it finds in the channel. -/
def Atendida : Situacao → List Evento → Prop
  | _, [] => True
  | s, .anuncia ds :: es => Atendida (s.passo (.anuncia ds)) es
  | s, .ciclo m :: es => Atende bom m s ∧ Atendida (s.passo (.ciclo m)) es
  | _, .para _ _ :: _ => False

variable {bom} {s : Situacao} {m : Mundo} {es es' : List Evento}

theorem SemPerda.anuncia {ds : List Deposito} (h : SemPerda bom s) :
    SemPerda bom (s.passo (.anuncia ds)) := by
  intro d hd hbom
  rcases List.mem_append.mp hd with hd | hd
  · rcases h d hd hbom with haceito | hpendente
    · exact .inl haceito
    · exact .inr (List.mem_append_left _ hpendente)
  · exact .inr (List.mem_append_right _ hd)

theorem aceitos_ciclo (r : Relayer) :
    (r.ciclo m).aceitos = (drena m 0 r.proximoNonce r.depositos).2 := by
  unfold Relayer.ciclo
  dsimp only
  split
  · rfl
  · rfl

/-- The deposits that adapters announce during the payouts wait for the next cycle. -/
theorem depositos_ciclo (r : Relayer) :
    (r.ciclo m).relayer.depositos = (r.ciclo m).anunciados := by
  unfold Relayer.ciclo
  dsimp only
  split
  · rfl
  · rfl

theorem SemPerda.ciclo (h : SemPerda bom s) (hm : Atende bom m s) :
    SemPerda bom (s.passo (.ciclo m)) := by
  intro d hd hbom
  change d ∈ (s.relayer.ciclo m).aceitos ++ s.aceitos ∨ d ∈ (s.relayer.ciclo m).relayer.depositos
  rw [aceitos_ciclo, depositos_ciclo]
  rcases List.mem_append.mp hd with hd | hd
  · refine .inl (List.mem_append.mpr ?_)
    rcases h d hd hbom with haceito | hpendente
    · exact .inr haceito
    · rcases hm d hpendente hbom with haceito | ⟨i, hi, hserve⟩
      · exact .inr haceito
      · refine .inl (mem_drena.mpr ⟨i, hi, ?_⟩)
        rwa [Nat.zero_add]
  · exact .inr hd

theorem SemPerda.roda (h : SemPerda bom s) (hes : Atendida bom s es) (hes' : es' <+: es) :
    SemPerda bom (s.roda es') := by
  induction es generalizing s es' with
  | nil =>
    rw [List.prefix_nil.mp hes']
    exact h
  | cons e es ih =>
    rcases List.prefix_cons_iff.mp hes' with rfl | ⟨fim, rfl, hfim⟩
    · exact h
    · cases e with
      | anuncia ds =>
        change SemPerda bom ((s.passo (.anuncia ds)).roda fim)
        exact ih h.anuncia hes hfim
      | ciclo m =>
        change SemPerda bom ((s.passo (.ciclo m)).roda fim)
        exact ih (h.ciclo hes.1) hes.2 hfim
      | para m n => exact hes.elim

/-- In a run whose cycles serve what they find in the channel, no state has lost a deposit. -/
theorem nenhum_deposito_perdido {adaptadores : List String}
    (hes : Atendida bom (inicio adaptadores) es) (hes' : es' <+: es) :
    SemPerda bom ((inicio adaptadores).roda es') :=
  SemPerda.roda (fun _ hd => absurd hd List.not_mem_nil) hes hes'

theorem deposito_atendido : SemPerda BemFormado
    ((inicio ["LOOPBACK"]).roda [.anuncia [depositoDeTeste], .ciclo (mundoDeTeste [])]) := by
  have hatendida : Atendida BemFormado (inicio ["LOOPBACK"])
      [.anuncia [depositoDeTeste], .ciclo (mundoDeTeste [])] := by
    refine ⟨fun d hd _ => .inr ⟨0, ?_, ?_⟩, trivial⟩
    · rw [List.mem_singleton.mp hd]
      rfl
    · rw [List.mem_singleton.mp hd]
      exact ⟨5, 0, by decide +kernel, rfl, rfl, rfl⟩
  exact nenhum_deposito_perdido hatendida (List.prefix_refl _)

/-- The query of the nonce fails once, after the deposit left the channel. -/
theorem deposito_perdido : ¬ ∀ (adaptadores : List String) (es : List Evento),
    (∀ m n, .para m n ∉ es) → SemPerda BemFormado ((inicio adaptadores).roda es) := by
  intro h
  let m : Mundo := { mundoDeTeste [] with proximoNonce := fun _ => .error (.transporte "timeout") }
  have hperda := h ["LOOPBACK"] [.anuncia [depositoDeTeste], .ciclo m] (by simp)
    depositoDeTeste (by decide +kernel) (by unfold BemFormado; decide +kernel)
  exact absurd hperda (by decide +kernel)

end

/-! ### Payouts -/

section

/-- Each transfer of the list that the adapter pays, and that was paid before, has its mark in
this process. -/
def Marcadas (m : Mundo) (s : Situacao) (ts : List Transferencia) : Prop :=
  ∀ (i : ℕ) (t : Transferencia), ts[i]? = some t → Paga m s.relayer.adaptadores i t →
    t.id ∈ s.pagos → t.id ∈ s.relayer.liquidando

/-- The transfers that the node lists in a cycle. -/
def listadas (m : Mundo) : List Transferencia :=
  match m.travadas with
  | .ok ts => ts
  | .error _ => []

/-- No cycle meets a transfer that an earlier process paid. -/
def SemReencontro : Situacao → List Evento → Prop
  | _, [] => True
  | s, .anuncia ds :: es => SemReencontro (s.passo (.anuncia ds)) es
  | s, .ciclo m :: es => Marcadas m s (listadas m) ∧ SemReencontro (s.passo (.ciclo m)) es
  | s, .para m n :: es =>
    Marcadas m s ((listadas m).take n) ∧ SemReencontro (s.passo (.para m n)) es

variable {s : Situacao} {m : Mundo} {e : Evento} {es : List Evento}

theorem nodup_ciclo (h : s.pagos.Nodup) :
    ((s.relayer.ciclo m).pagos ++ s.pagos).Nodup ↔ Marcadas m s (listadas m) := by
  unfold Relayer.ciclo listadas
  dsimp only
  cases m.travadas with
  | error e =>
    refine iff_of_true h ?_
    intro i t ht
    cases ht
  | ok ts =>
    refine (nodup_pagaTodas ?_ ?_).trans ?_
    · intro id hid
      cases hid
    · exact h
    · simp only [Nat.zero_add]
      exact Iff.rfl

theorem pagos_passo : s.pagos <:+ (s.passo e).pagos := by
  cases e with
  | anuncia ds => exact List.suffix_refl _
  | ciclo m => exact List.suffix_append _ _
  | para m n => exact List.suffix_append _ _

theorem pagos_roda : s.pagos <:+ (s.roda es).pagos := by
  induction es generalizing s with
  | nil => exact List.suffix_refl _
  | cons e es ih => exact pagos_passo.trans ih

theorem nodup_roda (h : s.pagos.Nodup) : (s.roda es).pagos.Nodup ↔ SemReencontro s es := by
  induction es generalizing s with
  | nil => exact iff_of_true h trivial
  | cons e es ih =>
    have hpasso : ((s.passo e).roda es).pagos.Nodup → (s.passo e).pagos.Nodup :=
      fun hfim => hfim.sublist pagos_roda.sublist
    change ((s.passo e).roda es).pagos.Nodup ↔ _
    cases e with
    | anuncia ds => exact ih h
    | ciclo m =>
      constructor
      · exact fun hfim => ⟨(nodup_ciclo h).mp (hpasso hfim), (ih (hpasso hfim)).mp hfim⟩
      · exact fun ⟨hm, hes⟩ => (ih ((nodup_ciclo h).mpr hm)).mpr hes
    | para m n =>
      have hm : (s.passo (.para m n)).pagos.Nodup ↔ Marcadas m s ((listadas m).take n) := by
        refine (nodup_ciclo (m := { m with travadas := m.travadas.map (List.take n) }) h).trans ?_
        have hlista : listadas { m with travadas := m.travadas.map (List.take n) } =
            (listadas m).take n := by
          unfold listadas
          cases m.travadas with
          | error e => exact List.take_nil.symm
          | ok ts => rfl
        rw [hlista]
        exact Iff.rfl
      constructor
      · exact fun hfim => ⟨hm.mp (hpasso hfim), (ih (hpasso hfim)).mp hfim⟩
      · exact fun ⟨hs, hes⟩ => (ih (hm.mpr hs)).mpr hes

end

end Situacao

end Eav7.Sdk
