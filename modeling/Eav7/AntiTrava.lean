import Eav7.Execucao
import Eav7.Timelock

/-!
# No account is locked

Every stored level has keys that together reach its threshold, whatever the order in
which changes are proposed, vetoed and applied: what is stored was normalised, and what
is pending was normalised before it waited.
-/

namespace Eav7

open Base
open GovTx (OpResolvida normalizarNivel normalizarActive simularMudanca)

variable {amb : Ambiente} {cr : Cripto} {s s₀ : State} {tx : Tx} {ctx : Ctx}

/-! ## Levels that keys can reach -/

/-- A level that is neither open nor out of reach. -/
structure Nivel.Operavel (n : Nivel) : Prop where
  limiar : 0 < n.threshold
  chaves : 1 ≤ n.keys.size ∧ n.keys.size ≤ Config.maxPermissionKeys
  pesos : ∀ {chave peso}, n.keys.get? chave = some peso → 0 < peso
  alcanca : n.threshold ≤ n.keys.total fun _ peso => peso
  cabe : (n.keys.total fun _ peso => peso) < u64Limit

structure Active.Operavel (a : Active) : Prop where
  nivel : a.nivel.Operavel
  escopo : ∀ ops ∈ a.operations, "PERMISSION_CHANGE" ∉ ops

def DelayValido (delay : ℕ) : Prop :=
  Config.permDelayMinBlocks ≤ delay ∧ delay ≤ Config.permDelayMaxBlocks

inductive Permission.Operavel : Permission → Prop
  | v1 {n : Nivel} (h : n.Operavel) : Operavel (.v1 n)
  | v2 {owner : Nivel} {actives : List Active} {witness recovery : Option String} {delay : ℕ}
      (howner : owner.Operavel)
      (hquantas : 1 ≤ actives.length ∧ actives.length ≤ Config.maxActivePermissions)
      (hactives : ∀ a ∈ actives, a.Operavel) (hdelay : DelayValido delay) :
      Operavel (.v2 owner actives witness recovery delay)

/-- A change that leaves what it writes operable. -/
def Mudanca.Valida : Mudanca → Prop
  | .owner n => n.Operavel
  | .active _ valor => ∀ a ∈ valor, a.Operavel
  | .witness _ | .recovery _ => True
  | .delay d => DelayValido d

/-- The levels that a permission asks signatures of. -/
def Permission.niveis : Permission → List Nivel
  | .v1 n => [n]
  | .v2 owner actives _ _ _ => owner :: actives.map (·.nivel)

theorem Nivel.peso_entradas {n : Nivel} {es : List (String × ℕ)} {acc : ℕ}
    (hes : ∀ e ∈ es, n.keys.get? e.1 = some e.2) (hcabe : acc + (es.map Prod.snd).sum < u64Limit) :
    n.peso (es.map Prod.fst) acc = some (acc + (es.map Prod.snd).sum) := by
  induction es generalizing acc with
  | nil => rfl
  | cons e es ih =>
    obtain ⟨he, hes⟩ := List.forall_mem_cons.mp hes
    rw [List.map_cons, List.sum_cons, ← Nat.add_assoc] at hcabe
    rw [List.map_cons, List.map_cons, List.sum_cons, Nivel.peso, he]
    dsimp only
    rw [if_pos ((Nat.le_add_right _ _).trans_lt hcabe), ih hes hcabe, Nat.add_assoc]

/-- All the keys of an operable level reach its threshold. -/
theorem Nivel.Operavel.autoriza {n : Nivel} (h : n.Operavel) :
    n.atingeLimiar n.keys.keys = true := by
  have hpeso : n.peso n.keys.keys 0 = some (n.keys.total fun _ peso => peso) := by
    refine (Nivel.peso_entradas (fun e he => OrdMap.mem_entries_iff.mp he) ?_).trans ?_
    · rw [Nat.zero_add]
      exact h.cabe
    · rw [Nat.zero_add]
      rfl
  unfold Nivel.atingeLimiar
  rw [hpeso]
  exact decide_eq_true h.alcanca

theorem Permission.Operavel.nivel {perm : Permission} (h : perm.Operavel) {n : Nivel}
    (hn : n ∈ perm.niveis) : n.Operavel := by
  cases h with
  | v1 h =>
    obtain rfl := List.mem_singleton.mp hn
    exact h
  | v2 howner hquantas hactives hdelay =>
    rcases List.mem_cons.mp hn with rfl | hn
    · exact howner
    · obtain ⟨a, ha, rfl⟩ := List.mem_map.mp hn
      exact (hactives a ha).nivel

/-! ## What is normalised is operable -/

namespace GovTx

theorem positivoU64_eq_ok {v : Option JsonValue} {msg : String} {n : ℕ}
    (h : positivoU64 v msg = .ok n) : 0 < n := by
  obtain ⟨i, -, hi⟩ := Option.bind_eq_some_iff.mp (exigir_eq_ok.mp h)
  split_ifs at hi with hpos
  obtain rfl := Option.some.inj hi
  omega

/-- The weights of the keys, in their order, with their sum. -/
theorem normalizarKeys_eq_ok {es : List (String × JsonValue)} {acc total : ℕ}
    {norm : List (String × ℕ)} (hacc : acc < u64Limit)
    (h : normalizarKeys cr es acc = .ok (total, norm)) :
    norm.map Prod.fst = es.map Prod.fst ∧ total = acc + (norm.map Prod.snd).sum ∧
      total < u64Limit ∧ ∀ e ∈ norm, 0 < e.2 := by
  induction es generalizing acc total norm with
  | nil =>
    cases h
    exact ⟨rfl, rfl, hacc, fun e he => by cases he⟩
  | cons e es ih =>
    obtain ⟨addr, w⟩ := e
    obtain ⟨_, -, h⟩ := except_bind_eq_ok.mp h
    obtain ⟨peso, hpeso, h⟩ := except_bind_eq_ok.mp h
    obtain ⟨_, hlimite, h⟩ := except_bind_eq_ok.mp h
    obtain ⟨⟨total', norm'⟩, hresto, h⟩ := except_bind_eq_ok.mp h
    cases h
    obtain ⟨hchaves, hsoma, hcabe, hpos⟩ :=
      ih (Nat.lt_of_not_le (recusar_eq_ok.mp hlimite)) hresto
    refine ⟨congrArg (addr :: ·) hchaves, ?_, hcabe, ?_⟩
    · rw [hsoma, List.map_cons, List.sum_cons, Nat.add_assoc]
    · exact List.forall_mem_cons.mpr ⟨positivoU64_eq_ok hpeso, hpos⟩

theorem normalizarNivel_operavel {v : Option JsonValue} {n : Nivel}
    (h : normalizarNivel cr v = .ok n) : n.Operavel := by
  obtain ⟨p, -, h⟩ := except_bind_eq_ok.mp h
  obtain ⟨threshold, hlimiar, h⟩ := except_bind_eq_ok.mp h
  obtain ⟨keys, -, h⟩ := except_bind_eq_ok.mp h
  obtain ⟨_, hquantas, h⟩ := except_bind_eq_ok.mp h
  obtain ⟨⟨total, norm⟩, hnorm, h⟩ := except_bind_eq_ok.mp h
  obtain ⟨_, halcanca, h⟩ := except_bind_eq_ok.mp h
  cases h
  have hquantas := recusar_eq_ok.mp hquantas
  obtain ⟨hchaves, hsoma, hcabe, hpos⟩ := normalizarKeys_eq_ok (by decide) hnorm
  rw [Nat.zero_add] at hsoma
  -- The keys come in the order of the map that they were read from.
  let m : OrdMap String ℕ := ⟨norm, by
    have hordem := List.pairwise_map.mpr keys.sorted
    rw [← hchaves] at hordem
    exact List.pairwise_map.mp hordem⟩
  have hm : OrdMap.ofList norm = m := OrdMap.ofList_entries m
  have htamanho : norm.length = keys.size := by
    have hlen := congrArg List.length hchaves
    rwa [List.length_map, List.length_map] at hlen
  have htotal : (m.total fun _ peso => peso) = total := hsoma.symm
  rw [hm]
  constructor
  case limiar => exact positivoU64_eq_ok hlimiar
  case chaves =>
    change 1 ≤ norm.length ∧ norm.length ≤ _
    omega
  case pesos => exact fun hpeso => hpos _ (OrdMap.mem_entries_iff.mpr hpeso)
  case alcanca =>
    dsimp only
    rw [htotal]
    exact Nat.le_of_not_lt (recusar_eq_ok.mp halcanca)
  case cabe =>
    dsimp only
    rw [htotal]
    exact hcabe

theorem operacoesActive_escopo {v : Option JsonValue} {operations : Option (List String)}
    (h : operacoesActive v = .ok operations) :
    ∀ ops ∈ operations, "PERMISSION_CHANGE" ∉ ops := by
  unfold operacoesActive at h
  split at h
  case h_1 => cases h; exact fun ops hops => by cases hops
  case h_2 => cases h; exact fun ops hops => by cases hops
  case h_3 =>
    obtain ⟨_, -, h⟩ := except_bind_eq_ok.mp h
    obtain ⟨_, -, h⟩ := except_bind_eq_ok.mp h
    obtain ⟨norm, -, h⟩ := except_bind_eq_ok.mp h
    obtain ⟨_, hfora, h⟩ := except_bind_eq_ok.mp h
    cases h
    rintro ops ⟨⟩ hmem
    exact recusar_eq_ok.mp hfora ((List.perm_insertionSort _ _).mem_iff.mp hmem)
  case h_4 => cases h

theorem normalizarActive_operavel {v : Option JsonValue} {a : Active}
    (h : normalizarActive cr v = .ok a) : a.Operavel := by
  obtain ⟨nivel, hnivel, h⟩ := except_bind_eq_ok.mp h
  obtain ⟨_, -, h⟩ := except_bind_eq_ok.mp h
  obtain ⟨_, -, h⟩ := except_bind_eq_ok.mp h
  obtain ⟨operations, hops, h⟩ := except_bind_eq_ok.mp h
  cases h
  exact ⟨normalizarNivel_operavel hnivel, operacoesActive_escopo hops⟩

theorem normalizarActives_operavel {vs : List JsonValue} {actives : List Active}
    (h : normalizarActives cr vs = .ok actives) :
    actives.length = vs.length ∧ ∀ a ∈ actives, a.Operavel := by
  induction vs generalizing actives with
  | nil =>
    cases h
    exact ⟨rfl, fun a ha => by cases ha⟩
  | cons v vs ih =>
    obtain ⟨active, hactive, h⟩ := except_bind_eq_ok.mp h
    obtain ⟨resto, hresto, h⟩ := except_bind_eq_ok.mp h
    cases h
    obtain ⟨hlen, hops⟩ := ih hresto
    exact ⟨congrArg Nat.succ hlen,
      List.forall_mem_cons.mpr ⟨normalizarActive_operavel hactive, hops⟩⟩

theorem delayValido_of_recusar {d : ℕ} {msg : String} {x : Unit}
    (h : recusar (d < Config.permDelayMinBlocks ∨ Config.permDelayMaxBlocks < d) msg = .ok x) :
    DelayValido d := by
  have h := recusar_eq_ok.mp h
  unfold DelayValido
  omega

theorem delayDe_valido {v : Option JsonValue} {delay : ℕ} (h : delayDe v = .ok delay) :
    DelayValido delay := by
  unfold delayDe at h
  dsimp only at h
  split at h
  all_goals
    obtain ⟨d, -, h⟩ := except_bind_eq_ok.mp h
    obtain ⟨_, hfaixa, h⟩ := except_bind_eq_ok.mp h
    cases h
    exact delayValido_of_recusar hfaixa

theorem permissaoDe_operavel {raw : Option JsonValue} {perm : Permission}
    (h : permissaoDe cr raw = .ok perm) : perm.Operavel := by
  unfold permissaoDe at h
  split_ifs at h
  · obtain ⟨p, -, h⟩ := except_bind_eq_ok.mp h
    obtain ⟨owner, howner, h⟩ := except_bind_eq_ok.mp h
    obtain ⟨_, hvazia, h⟩ := except_bind_eq_ok.mp h
    obtain ⟨_, hmuitas, h⟩ := except_bind_eq_ok.mp h
    obtain ⟨actives, hactives, h⟩ := except_bind_eq_ok.mp h
    obtain ⟨_, -, h⟩ := except_bind_eq_ok.mp h
    obtain ⟨_, -, h⟩ := except_bind_eq_ok.mp h
    obtain ⟨delay, hdelay, h⟩ := except_bind_eq_ok.mp h
    cases h
    obtain ⟨hlen, hops⟩ := normalizarActives_operavel hactives
    have hvazia := recusar_eq_ok.mp hvazia
    have hmuitas := recusar_eq_ok.mp hmuitas
    refine .v2 (normalizarNivel_operavel howner) ?_ hops ?_
    · rw [hlen]
      exact ⟨Nat.pos_of_ne_zero hvazia, Nat.le_of_not_lt hmuitas⟩
    · exact delayDe_valido hdelay
  · cases hn : normalizarNivel cr raw with
    | error e =>
      rw [hn] at h
      cases h
    | ok n =>
      rw [hn] at h
      cases h
      exact .v1 (normalizarNivel_operavel hn)

theorem normalizarMudanca_valida {v : Option JsonValue} {mudanca : Mudanca}
    (h : normalizarMudanca cr v = .ok mudanca) : mudanca.Valida := by
  obtain ⟨c, -, h⟩ := except_bind_eq_ok.mp h
  dsimp only at h
  split_ifs at h
  · obtain ⟨n, hn, h⟩ := except_bind_eq_ok.mp h
    cases h
    exact normalizarNivel_operavel hn
  · obtain ⟨id, -, h⟩ := except_bind_eq_ok.mp h
    split at h
    · cases h
      exact fun a ha => by cases ha
    · obtain ⟨active, hactive, h⟩ := except_bind_eq_ok.mp h
      cases h
      rintro a ⟨⟩
      exact normalizarActive_operavel hactive
  · obtain ⟨w, -, h⟩ := except_bind_eq_ok.mp h
    cases h
    trivial
  · obtain ⟨w, -, h⟩ := except_bind_eq_ok.mp h
    cases h
    trivial
  · obtain ⟨d, -, h⟩ := except_bind_eq_ok.mp h
    obtain ⟨_, hfaixa, h⟩ := except_bind_eq_ok.mp h
    cases h
    exact delayValido_of_recusar hfaixa
  · cases h

/-! ## A change keeps the permission operable -/

theorem mudaActives_operavel {actives novas : List Active} {id : ℕ} {valor : Option Active}
    (h : mudaActives actives id valor = .ok novas)
    (hquantas : actives.length ≤ Config.maxActivePermissions) (hops : ∀ a ∈ actives, a.Operavel)
    (hvalor : ∀ a ∈ valor, a.Operavel) :
    novas.length ≤ Config.maxActivePermissions ∧ ∀ a ∈ novas, a.Operavel := by
  unfold mudaActives at h
  cases valor with
  | none =>
    cases h
    exact ⟨(List.eraseIdx_sublist _ _).length_le.trans hquantas,
      fun a ha => hops a (List.mem_of_mem_eraseIdx ha)⟩
  | some v =>
    have hv := hvalor v rfl
    dsimp only at h
    split_ifs at h with hid hcheia
    · cases h
      refine ⟨(List.length_set ..).le.trans hquantas, fun a ha => ?_⟩
      rcases List.mem_or_eq_of_mem_set ha with ha | rfl
      · exact hops a ha
      · exact hv
    · cases h
    · cases h
      refine ⟨?_, fun a ha => ?_⟩
      · rw [List.length_append]
        exact Nat.lt_of_not_le hcheia
      · rcases List.mem_append.mp ha with ha | ha
        · exact hops a ha
        · obtain rfl := List.mem_singleton.mp ha
          exact hv

/-- The last checks of a simulated change. -/
theorem simulada {owner : Nivel} {actives : List Active} {witness recovery : Option String}
    {delay : ℕ} {nova : Permission} {x : R (List Active)} (hx : x = .ok actives)
    (h : (do
      let actives ← x
      recusar (owner.keys.size = 0) "configuração deixaria a conta sem owner"
      recusar (actives.length = 0) "configuração deixaria a conta sem active"
      recusar (actives.any fun a => a.nivel.keys.size == 0) "active sem chaves"
      return .v2 owner actives witness recovery delay : R Permission) = .ok nova) :
    nova = .v2 owner actives witness recovery delay ∧ 1 ≤ actives.length := by
  obtain ⟨actives', hx', h⟩ := except_bind_eq_ok.mp h
  obtain rfl := Except.ok.inj (hx.symm.trans hx')
  obtain ⟨_, -, h⟩ := except_bind_eq_ok.mp h
  obtain ⟨_, hvazia, h⟩ := except_bind_eq_ok.mp h
  obtain ⟨_, -, h⟩ := except_bind_eq_ok.mp h
  exact ⟨(Except.ok.inj h).symm, Nat.pos_of_ne_zero (recusar_eq_ok.mp hvazia)⟩

theorem simularMudanca_operavel {perm nova : Permission} {mudanca : Mudanca}
    (h : simularMudanca perm mudanca = .ok nova) (hperm : perm.Operavel)
    (hmudanca : mudanca.Valida) : nova.Operavel := by
  cases hperm with
  | v1 => cases h
  | v2 howner hquantas hactives hdelay =>
    cases mudanca with
    | owner n =>
      obtain ⟨rfl, -⟩ := simulada rfl h
      exact .v2 hmudanca hquantas hactives hdelay
    | active id valor =>
      obtain ⟨novas, hnovas, -⟩ := except_bind_eq_ok.mp h
      obtain ⟨rfl, hvazia⟩ := simulada hnovas h
      obtain ⟨hlen, hops⟩ := mudaActives_operavel hnovas hquantas.2 hactives hmudanca
      exact .v2 howner ⟨hvazia, hlen⟩ hops hdelay
    | witness w =>
      obtain ⟨rfl, -⟩ := simulada rfl h
      exact .v2 howner hquantas hactives hdelay
    | recovery r =>
      obtain ⟨rfl, -⟩ := simulada rfl h
      exact .v2 howner hquantas hactives hdelay
    | delay d =>
      obtain ⟨rfl, -⟩ := simulada rfl h
      exact .v2 howner hquantas hactives hmudanca

end GovTx

/-! ## The guard stays operable -/

/-- The permissions stored are operable, and the changes pending would keep them so. -/
structure Guarda.Operavel (g : Guarda) : Prop where
  permissoes : ∀ {conta perm}, g.permissions.get? conta = some perm → perm.Operavel
  mudancas : ∀ {conta pend}, g.pendingPerm.get? conta = some pend → pend.change.Valida

namespace Guarda.Operavel

variable {g : Guarda} {conta : String}

theorem comPermissao (h : g.Operavel) {perm : Option Permission}
    (hperm : ∀ p ∈ perm, p.Operavel) : (g.comPermissao conta perm).Operavel := by
  refine ⟨fun {c p} hp => ?_, h.mudancas⟩
  cases perm with
  | none =>
    change (g.permissions.erase conta).get? c = some p at hp
    rw [OrdMap.get?_erase] at hp
    split_ifs at hp
    exact h.permissoes hp
  | some nova =>
    change (g.permissions.insert conta nova).get? c = some p at hp
    rw [OrdMap.get?_insert] at hp
    split_ifs at hp
    · obtain rfl := Option.some.inj hp
      exact hperm nova rfl
    · exact h.permissoes hp

theorem comMudanca (h : g.Operavel) {pend : PendingPerm} (hpend : pend.change.Valida) :
    (g.comMudanca conta pend).Operavel := by
  refine ⟨h.permissoes, fun {c p} hp => ?_⟩
  change (g.pendingPerm.insert conta pend).get? c = some p at hp
  rw [OrdMap.get?_insert] at hp
  split_ifs at hp
  · obtain rfl := Option.some.inj hp
    exact hpend
  · exact h.mudancas hp

theorem semMudanca (h : g.Operavel) : (g.semMudanca conta).Operavel := by
  refine ⟨h.permissoes, fun {c p} hp => ?_⟩
  change (g.pendingPerm.erase conta).get? c = some p at hp
  rw [OrdMap.get?_erase] at hp
  split_ifs at hp
  exact h.mudancas hp

/-- A change that matures is checked again on the permission it finds. -/
theorem matura (h : g.Operavel) (height : ℕ) : (g.matura height).Operavel := by
  have hconta : ∀ conta, (g.matura height).de conta = amadurece height (g.de conta) :=
    fun conta => Guarda.de_matura height
  constructor
  case permissoes =>
    intro conta perm hperm
    have hde : (amadurece height (g.de conta)).1 = some perm :=
      (congrArg Prod.fst (hconta conta)).symm.trans hperm
    unfold Guarda.de at hde
    cases hpend : g.pendingPerm.get? conta with
    | none =>
      rw [hpend] at hde
      exact h.permissoes hde
    | some pend =>
      rw [hpend] at hde
      unfold amadurece at hde
      dsimp only at hde
      split_ifs at hde
      case neg => exact h.permissoes hde
      obtain ⟨antes, hantes, rfl⟩ := Option.map_eq_some_iff.mp hde
      have hantes := h.permissoes hantes
      unfold mudaPermissao
      split_ifs
      case neg => exact hantes
      split
      case h_1 nova hnova => exact GovTx.simularMudanca_operavel hnova hantes (h.mudancas hpend)
      case h_2 => exact hantes
  case mudancas =>
    intro conta pend hpend
    have hde : (amadurece height (g.de conta)).2 = some pend :=
      (congrArg Prod.snd (hconta conta)).symm.trans hpend
    unfold Guarda.de at hde
    cases hantes : g.pendingPerm.get? conta with
    | none =>
      rw [hantes] at hde
      cases hde
    | some antes =>
      rw [hantes] at hde
      unfold amadurece at hde
      dsimp only at hde
      split_ifs at hde
      obtain rfl := Option.some.inj hde
      exact h.mudancas hantes

end Guarda.Operavel

/-- The computations that keep the guard operable. -/
abbrev MantemOperavel {α : Type} (m : Op α) : Prop := Mantem (DaGuarda Guarda.Operavel) m

namespace GovTx

theorem permissionUpdate_operavel : MantemOperavel (permissionUpdate cr tx ctx) := by
  refine .get_bind fun s hs => .lift_bind fun _ => .lift_bind fun d => ?_
  refine .conferir fun perm hperm => .bind (cobrarTaxa_mantem _ _) fun _ => ?_
  refine .modify_intro fun u (hu : u.guarda.Operavel) => ?_
  refine ⟨fun {c p} hp => ?_, hu.mudancas⟩
  change (u.permissions.insert tx.de perm).get? c = some p at hp
  rw [OrdMap.get?_insert] at hp
  split_ifs at hp
  · obtain rfl := Option.some.inj hp
    exact permissaoDe_operavel hperm
  · exact hu.permissoes hp

theorem permissionPropose_operavel : MantemOperavel (permissionPropose cr tx ctx) := by
  refine .get_bind fun s hs => .lift_bind fun d => .lift_bind fun conta => ?_
  refine .lift_bind fun perm => .lift_bind fun _ => .lift_bind fun _ => ?_
  refine .conferir fun mudanca hmudanca => .lift_bind fun _ => .lift_bind fun delay => ?_
  refine .lift_bind fun executeAt => .bind (cobrarTaxa_mantem _ _) fun _ => ?_
  refine .modify_intro fun u hu => ?_
  change (u.guarda.comMudanca conta (novaMudanca tx ctx.height mudanca executeAt)).Operavel
  exact Guarda.Operavel.comMudanca hu (normalizarMudanca_valida hmudanca)

theorem permissionApprove_operavel : MantemOperavel (permissionApprove cr tx ctx) := by
  refine .get_bind fun s hs => .lift_bind fun d => .lift_bind fun conta => ?_
  refine .conferir fun pend hpend => .lift_bind fun perm => .lift_bind fun _ => ?_
  refine .lift_bind fun _ => .lift_bind fun delay => .lift_bind fun novo => ?_
  refine .bind (cobrarTaxa_mantem _ _) fun _ => .modify_intro fun u hu => ?_
  have hchange : pend.change.Valida := Guarda.Operavel.mudancas hs (exigir_eq_ok.mp hpend)
  change (u.guarda.comMudanca conta { pend with
    approvals := pend.approvals.insert tx.de true
    executeAt := novo.or pend.executeAt }).Operavel
  exact Guarda.Operavel.comMudanca hu hchange

theorem permissionVeto_operavel : MantemOperavel (permissionVeto cr tx ctx) := by
  refine .get_bind fun s hs => .lift_bind fun d => .lift_bind fun conta => ?_
  refine .conferir fun pend hpend => .lift_bind fun owner => .lift_bind fun _ => ?_
  refine .bind (cobrarTaxa_mantem _ _) fun _ => .modify_intro fun u hu => ?_
  have hchange : pend.change.Valida := Guarda.Operavel.mudancas hs (exigir_eq_ok.mp hpend)
  split
  · change (u.guarda.semMudanca conta).Operavel
    exact Guarda.Operavel.semMudanca hu
  · change (u.guarda.comMudanca conta
      { pend with vetoes := pend.vetoes.insert tx.de true }).Operavel
    exact Guarda.Operavel.comMudanca hu hchange

/-- An operation that replaces a permission was normalised in the same transaction. -/
theorem aplicarOp_operavel {account opId : String} {op : OpResolvida} {height : ℕ}
    {body : List (String × JsonValue)}
    (hop : validarOp amb.cripto s account (.map body) height = .ok op) :
    MantemOperavel (aplicarOp amb.cripto account op height opId) := by
  refine aplicarOp_mantem amb.cripto account op height opId ?_
  rintro perm rfl u hu
  change (u.guarda.comPermissao account perm).Operavel
  refine Guarda.Operavel.comPermissao hu fun nova hnova => ?_
  obtain rfl : perm = some nova := hnova
  have hvalida := (validarOp_troca hop).2
  unfold validarPermissionChange at hvalida
  split at hvalida
  · cases hvalida
  · obtain ⟨n, hn, hvalida⟩ := except_bind_eq_ok.mp hvalida
    cases hvalida
    exact .v1 (normalizarNivel_operavel hn)

theorem multisigPropose_operavel : MantemOperavel (multisigPropose amb.cripto tx ctx) := by
  refine .get_bind fun s hs => .conferir fun p hp => .bind (cobrarTaxa_mantem _ _) fun _ => ?_
  obtain ⟨_, nivel, _, -, -, -, -, -, hop⟩ := conferirProposta_eq_ok hp
  split
  case h_1 op hresolvida => exact aplicarOp_operavel (hop op hresolvida).2
  case h_2 => exact .modify_intro fun u hu => ⟨hu.permissoes, hu.mudancas⟩

theorem multisigApprove_operavel : MantemOperavel (multisigApprove amb.cripto tx ctx) := by
  refine .get_bind fun s hs => .conferir fun p hp => .bind (cobrarTaxa_mantem _ _) fun _ => ?_
  obtain ⟨-, _, nivel, _, -, -, -, -, -, hop⟩ := conferirAprovacao_eq_ok hp
  split
  case h_1 op hresolvida =>
    refine .modify_bind (fun u hu => ⟨hu.permissoes, hu.mudancas⟩) ?_
    exact aplicarOp_operavel (hop op hresolvida).2.2
  case h_2 => exact .modify_intro fun u hu => ⟨hu.permissoes, hu.mudancas⟩

end GovTx

theorem manipulador_operavel (tipo : Tipo) : MantemOperavel (manipulador amb tx ctx tipo) := by
  by_cases hperm : tipo ∈ Tipo.dePermissao
  · simp only [Tipo.dePermissao, List.mem_cons, List.not_mem_nil, or_false] at hperm
    rcases hperm with rfl | rfl | rfl | rfl | rfl | rfl
    · exact GovTx.permissionUpdate_operavel
    · exact GovTx.permissionPropose_operavel
    · exact GovTx.permissionApprove_operavel
    · exact GovTx.permissionVeto_operavel
    · exact GovTx.multisigPropose_operavel
    · exact GovTx.multisigApprove_operavel
  · exact manipulador_mantem tx ctx hperm

/-- Every action keeps the guard operable, also when it fails half way. -/
theorem opera_operavel (hs : s.guarda.Operavel) (a : Acao) :
    (a.opera amb s).guarda.Operavel := by
  cases a with
  | transacao tx height blockTs =>
    refine Runs.fim (I := DaGuarda Guarda.Operavel) (applyTransaction_guia hs ?_)
    exact fun tipo gb fee _ _ _ _ => manipulador_operavel tipo s hs
  | tick height =>
    generalize hg : ((Acao.tick height).opera amb s).guarda = g
    have hmuda : Muda amb s (.tick height) _ := opera_muda (.tick height)
    rw [hg] at hmuda
    cases hmuda with
    | nada => exact hs
    | tique =>
      have hexpira : (s.guarda.expira height).Operavel := ⟨hs.permissoes, hs.mudancas⟩
      exact hexpira.matura height
  | abre block => exact (abreBloco_mantem (I := DaGuarda Guarda.Operavel) block s hs).fim
  | emite block => exact (emiteRecompensa_mantem (I := DaGuarda Guarda.Operavel) block s hs).fim

theorem roda_operavel (h₀ : s₀.guarda.Operavel) (passado : List Acao) :
    (roda amb s₀ passado).guarda.Operavel := by
  induction passado with
  | nil => exact h₀
  | cons a passado ih => exact opera_operavel ih a

/-- In every state of every run, failed actions included: a stored permission has all its
levels within reach, as many actives and as long a delay as allowed, and no active that
changes permissions; and the keys of each level authorise what it is asked. -/
theorem contas_operaveis (hg : Genese amb s₀) (passado : List Acao) {conta : String}
    {perm : Permission} (h : (roda amb s₀ passado).permissions.get? conta = some perm) :
    perm.Operavel ∧ ∀ nivel ∈ perm.niveis, ∃ signers : List String,
      (∀ chave ∈ signers, ∃ peso, nivel.keys.get? chave = some peso) ∧
      nivel.atingeLimiar signers = true := by
  have hvazia : s₀.guarda = ({} : State).guarda := applyGenesis_guarda hg.choose_spec
  have h₀ : s₀.guarda.Operavel := by
    rw [hvazia]
    exact ⟨fun h => (by cases h), fun h => (by cases h)⟩
  have hdia : (roda amb s₀ passado).guarda.Operavel := roda_operavel h₀ passado
  have hperm := hdia.permissoes h
  refine ⟨hperm, fun nivel hnivel => ⟨nivel.keys.keys, fun chave hchave => ?_, ?_⟩⟩
  · exact OrdMap.mem_keys.mp hchave
  · exact (hperm.nivel hnivel).autoriza

/-! ## An account with an owner and an active -/

theorem cofre_operavel : ∃ perm,
    (roda ambienteIdeal estadoCofre [configuraCofre]).permissions.get? enderecoA = some perm ∧
    perm.Operavel := by
  obtain ⟨perm, hperm, -⟩ := Option.map_eq_some_iff.mp cofre_configurado.out.2.1
  exact ⟨perm, hperm, (contas_operaveis ⟨_, genese_cofre⟩ [configuraCofre] hperm).1⟩

end Eav7
