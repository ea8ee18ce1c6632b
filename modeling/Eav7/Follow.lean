import Eav7.Base.Fallible
import Mathlib.Data.List.Basic
import Mathlib.Data.Int.Notation
import Mathlib.Order.Lattice
import Mathlib.Data.Int.Order.Basic

/-!
# The tip gate of a producer

Before its slot a producer asks every peer for its `/status` and gives the slot
up when it is behind them or when the tips differ. A height is what the peer says
of itself, so a single report can close the gate.
-/

namespace Eav7.Follow

/-- How far behind the reference a node may be and still be catching up. -/
def maxLagBlocks : ℤ := 3

/-- A claim further ahead than this is not listened to. -/
def maxClaimLag : ℤ := 10000

inductive FollowDecision where
  | allow
  | hold (motivo : String)
deriving DecidableEq

/-- The fields that the gate reads in the `/status` of a peer. -/
structure Status where
  height : Option ℤ
  headHash : Option String

/-- The tip of a peer, as it reports it. -/
structure Tip where
  height : ℤ
  hash : Option String
deriving DecidableEq

/-- The tip in an answer, when there is an answer, it has a height and the height
is not too far ahead. -/
def lerTip (localHeight : ℤ) (resposta : Option Status) : Option Tip :=
  match resposta with
  | none => none
  | some status =>
    match status.height with
    | none => none
    | some h => if localHeight + maxClaimLag < h then none else some ⟨h, status.headHash⟩

/-- The best tip once another one is read; two hashes at the best height are a fork. -/
def disputa (melhor : Option Tip) (tip : Tip) : Except String Tip :=
  match melhor with
  | none => .ok tip
  | some m =>
    if m.height < tip.height then .ok tip
    else if tip.height = m.height ∧ m.hash.isSome ∧ tip.hash.isSome ∧ m.hash ≠ tip.hash then
      .error "peer-tip-fork"
    else .ok m

/-- The best tip among the answers, in the order of the peers. -/
def melhorTip (localHeight : ℤ) (melhor : Option Tip) :
    List (Option Status) → Except String (Option Tip)
  | [] => .ok melhor
  | resposta :: respostas =>
    match lerTip localHeight resposta with
    | none => melhorTip localHeight melhor respostas
    | some tip =>
      match disputa melhor tip with
      | .error motivo => .error motivo
      | .ok m => melhorTip localHeight (some m) respostas

def decideAgainst (remoto : Option Tip) (localHeight : ℤ) (localHead : Option String)
    (strictAhead : Bool) : FollowDecision :=
  match remoto with
  | none => .hold "follow-unreachable"
  | some r =>
    if localHeight + maxLagBlocks < r.height then .hold "behind-canonical"
    else if localHeight < r.height then .hold "catching-up"
    else if r.height < localHeight then
      if strictAhead ∧ maxLagBlocks < localHeight - r.height then .hold "ahead-of-canonical"
      else .allow
    else match r.hash, localHead with
      | some a, some b => if a = b then .allow else .hold "tip-diverged"
      | none, _ => .allow
      | some _, none => .hold "local-no-head"

/-- The gate against the node that the operator follows. -/
def check (resposta : Option Status) (localHeight : ℤ) (localHead : Option String) :
    FollowDecision :=
  let tip := resposta.bind fun status => status.height.map fun h => ⟨h, status.headHash⟩
  decideAgainst tip localHeight localHead true

/-- The gate against the peers. -/
def checkPeers (respostas : List (Option Status)) (localHeight : ℤ) (localHead : Option String) :
    FollowDecision :=
  match melhorTip localHeight none respostas with
  | .error motivo => .hold motivo
  | .ok none => .allow
  | .ok (some m) => decideAgainst (some m) localHeight localHead false

/-! ## The scan over tips -/

/-- The reports that the gate listens to. -/
def tips (localHeight : ℤ) (respostas : List (Option Status)) : List Tip :=
  respostas.filterMap (lerTip localHeight)

def disputas (melhor : Option Tip) : List Tip → Except String (Option Tip)
  | [] => .ok melhor
  | tip :: resto =>
    match disputa melhor tip with
    | .error motivo => .error motivo
    | .ok m => disputas (some m) resto

theorem melhorTip_eq (localHeight : ℤ) (melhor : Option Tip) (respostas : List (Option Status)) :
    melhorTip localHeight melhor respostas = disputas melhor (tips localHeight respostas) := by
  induction respostas generalizing melhor with
  | nil => rfl
  | cons r rs ih =>
    unfold melhorTip tips
    cases hr : lerTip localHeight r with
    | none =>
      rw [List.filterMap_cons_none hr]
      exact ih melhor
    | some tip =>
      rw [List.filterMap_cons_some hr, disputas]
      dsimp only
      cases disputa melhor tip with
      | error motivo => rfl
      | ok m => exact ih (some m)

theorem tips_append (localHeight : ℤ) (as bs : List (Option Status)) :
    tips localHeight (as ++ bs) = tips localHeight as ++ tips localHeight bs :=
  List.filterMap_append

theorem disputas_append (melhor : Option Tip) (as bs : List Tip) :
    disputas melhor (as ++ bs) =
      match disputas melhor as with
      | .error motivo => .error motivo
      | .ok m => disputas m bs := by
  induction as generalizing melhor with
  | nil => rfl
  | cons a as ih =>
    rw [List.cons_append, disputas, disputas]
    cases disputa melhor a with
    | error motivo => rfl
    | ok m => exact ih (some m)

/-- Two reports of one height that do not contradict each other. -/
def Concordam (a b : Tip) : Prop := a.hash = none ∨ b.hash = none ∨ a.hash = b.hash

instance (a b : Tip) : Decidable (Concordam a b) := by unfold Concordam; infer_instance

theorem disputa_maior {m tip : Tip} (h : m.height < tip.height) :
    disputa (some m) tip = .ok tip := if_pos h

theorem disputa_menor {m tip : Tip} (h : tip.height < m.height) :
    disputa (some m) tip = .ok m := by
  have hno : ¬ m.height < tip.height := not_lt.mpr h.le
  exact (if_neg hno).trans (if_neg fun hc => h.ne hc.1)

theorem disputa_concordam {m tip : Tip} (h : tip.height = m.height) (hc : Concordam m tip) :
    disputa (some m) tip = .ok m := by
  have hno : ¬ m.height < tip.height := not_lt.mpr h.le
  refine (if_neg hno).trans (if_neg ?_)
  rintro ⟨-, hm, ht, hne⟩
  rcases hc with hc | hc | hc
  · rw [hc] at hm
    exact Bool.false_ne_true hm
  · rw [hc] at ht
    exact Bool.false_ne_true ht
  · exact hne hc

theorem disputa_fork {m tip : Tip} (h : tip.height = m.height) (hc : ¬ Concordam m tip) :
    disputa (some m) tip = .error "peer-tip-fork" := by
  have hno : ¬ m.height < tip.height := not_lt.mpr h.le
  unfold Concordam at hc
  obtain ⟨hm, ht, hne⟩ : m.hash ≠ none ∧ tip.hash ≠ none ∧ m.hash ≠ tip.hash := by
    simpa only [not_or] using hc
  exact (if_neg hno).trans (if_pos ⟨h, Option.isSome_iff_ne_none.mpr hm,
    Option.isSome_iff_ne_none.mpr ht, hne⟩)

/-- One report keeps the best tip or becomes it, and the best height is the greatest. -/
theorem disputa_ok {m : Option Tip} {tip r : Tip} (h : disputa m tip = .ok r) :
    tip.height ≤ r.height ∧ (∀ t, m = some t → t.height ≤ r.height) ∧
      (r = tip ∧ (∀ t, m = some t → t.height < tip.height) ∨ m = some r) := by
  cases m with
  | none =>
    obtain rfl : tip = r := Except.ok.inj h
    refine ⟨le_rfl, ?_, .inl ⟨rfl, ?_⟩⟩
    · rintro t ⟨⟩
    · rintro t ⟨⟩
  | some t =>
    rcases lt_trichotomy t.height tip.height with hlt | heq | hgt
    · obtain rfl : tip = r := Except.ok.inj ((disputa_maior hlt).symm.trans h)
      refine ⟨le_rfl, ?_, .inl ⟨rfl, ?_⟩⟩
      · rintro u ⟨⟩
        exact hlt.le
      · rintro u ⟨⟩
        exact hlt
    · by_cases hc : Concordam t tip
      · obtain rfl : t = r := Except.ok.inj ((disputa_concordam heq.symm hc).symm.trans h)
        exact ⟨heq.ge, fun u hu => (Option.some.inj hu) ▸ le_rfl, .inr rfl⟩
      · rw [disputa_fork heq.symm hc] at h
        cases h
    · obtain rfl : t = r := Except.ok.inj ((disputa_menor hgt).symm.trans h)
      exact ⟨hgt.le, fun u hu => (Option.some.inj hu) ▸ le_rfl, .inr rfl⟩

theorem disputas_cons_ok {m m' : Option Tip} {tip : Tip} {ts : List Tip}
    (h : disputas m (tip :: ts) = .ok m') :
    ∃ r, disputa m tip = .ok r ∧ disputas (some r) ts = .ok m' := by
  unfold disputas at h
  cases hd : disputa m tip with
  | error motivo =>
    rw [hd] at h
    cases h
  | ok r =>
    rw [hd] at h
    exact ⟨r, rfl, h⟩

/-- The best tip after a scan is at least as high as every tip of it. -/
theorem disputas_le {m : Option Tip} {r : Tip} {ts : List Tip}
    (h : disputas m ts = .ok (some r)) :
    (∀ t, m = some t → t.height ≤ r.height) ∧ ∀ t ∈ ts, t.height ≤ r.height := by
  induction ts generalizing m with
  | nil =>
    obtain rfl : m = some r := Except.ok.inj h
    exact ⟨fun t ht => (Option.some.inj ht) ▸ le_rfl, fun t ht => (List.not_mem_nil ht).elim⟩
  | cons tip ts ih =>
    obtain ⟨x, hx, hts⟩ := disputas_cons_ok h
    obtain ⟨hmeio, hresto⟩ := ih hts
    obtain ⟨h1, h2, -⟩ := disputa_ok hx
    have hxr : x.height ≤ r.height := hmeio x rfl
    refine ⟨fun t ht => (h2 t ht).trans hxr, fun t ht => ?_⟩
    rcases List.mem_cons.mp ht with rfl | ht
    · exact h1.trans hxr
    · exact hresto t ht

theorem disputas_none {m : Option Tip} {ts : List Tip} (h : disputas m ts = .ok none) :
    m = none ∧ ts = [] := by
  cases ts with
  | nil => exact ⟨Except.ok.inj h, rfl⟩
  | cons tip ts =>
    obtain ⟨x, -, hts⟩ := disputas_cons_ok h
    exfalso
    clear h
    induction ts generalizing x with
    | nil => cases hts
    | cons t ts ih =>
      obtain ⟨y, -, hy⟩ := disputas_cons_ok hts
      exact ih y hy

/-- The best tip of a scan is the first one of its height. -/
theorem disputas_primeiro {m : Option Tip} {r : Tip} {ts : List Tip}
    (h : disputas m ts = .ok (some r)) :
    m = some r ∨ (∀ t, m = some t → t.height < r.height) ∧
      ts.find? (fun t => t.height = r.height) = some r := by
  induction ts generalizing m with
  | nil => exact .inl (Except.ok.inj h)
  | cons tip ts ih =>
    obtain ⟨x, hx, hts⟩ := disputas_cons_ok h
    obtain ⟨htip, hm, hfica⟩ := disputa_ok hx
    rcases ih hts with hxr | ⟨hxr, hfind⟩
    · obtain rfl : x = r := Option.some.inj hxr
      rcases hfica with ⟨rfl, hlt⟩ | rfl
      · refine .inr ⟨hlt, ?_⟩
        exact List.find?_cons_of_pos (decide_eq_true rfl)
      · exact .inl rfl
    · have hlt : x.height < r.height := hxr x rfl
      refine .inr ⟨fun t ht => (hm t ht).trans_lt hlt, ?_⟩
      rw [List.find?_cons_of_neg]
      · exact hfind
      · exact fun hc => (htip.trans_lt hlt).ne (of_decide_eq_true hc)

/-! ## One more report -/

/-- The reports before the first one that is higher than a tip. -/
def ateSuperar (tip : Tip) (ts : List Tip) : List Tip :=
  ts.takeWhile fun t => decide (t.height ≤ tip.height)

/-- No report contradicts a tip before a higher one comes. -/
def SemContradicao (tip : Tip) (ts : List Tip) : Prop :=
  ∀ t ∈ ateSuperar tip ts, t.height = tip.height → Concordam tip t

theorem semContradicao_cons_maior {tip t : Tip} {ts : List Tip} (h : tip.height < t.height) :
    SemContradicao tip (t :: ts) := by
  unfold SemContradicao ateSuperar
  rw [List.takeWhile_cons_of_neg fun hc => (of_decide_eq_true hc).not_gt h]
  exact fun u hu => (List.not_mem_nil hu).elim

theorem semContradicao_cons {tip t : Tip} {ts : List Tip} (h : t.height ≤ tip.height) :
    SemContradicao tip (t :: ts) ↔
      (t.height = tip.height → Concordam tip t) ∧ SemContradicao tip ts := by
  have hcons : ateSuperar tip (t :: ts) = t :: ateSuperar tip ts :=
    List.takeWhile_cons_of_pos (decide_eq_true h)
  unfold SemContradicao
  rw [hcons, List.forall_mem_cons]

/-- A scan from a new best tip: it stops at a contradiction, keeps that tip when
nothing is higher and otherwise ends where the scan without it ends. -/
theorem disputas_com_lider {m m' : Option Tip} {r : Tip} {ts : List Tip}
    (hm : ∀ t, m = some t → t.height ≤ r.height) (h : disputas m ts = .ok m') :
    (SemContradicao r ts → disputas (some r) ts =
      .ok (if ∃ t ∈ ts, r.height < t.height then m' else some r)) ∧
    (¬ SemContradicao r ts → ∃ motivo, disputas (some r) ts = .error motivo) := by
  induction ts generalizing m with
  | nil =>
    have hsem : SemContradicao r [] := fun t ht => (List.not_mem_nil ht).elim
    refine ⟨fun _ => ?_, fun hno => (hno hsem).elim⟩
    rw [if_neg fun hc => by obtain ⟨t, ht, -⟩ := hc; exact List.not_mem_nil ht]
    rfl
  | cons tip ts ih =>
    obtain ⟨x, hx, hts⟩ := disputas_cons_ok h
    obtain ⟨htip, -, hfica⟩ := disputa_ok hx
    rcases lt_or_ge r.height tip.height with hgt | hle
    · -- The report is higher than both: from here the two scans are the same.
      have hsem : SemContradicao r (tip :: ts) := semContradicao_cons_maior hgt
      obtain rfl : x = tip := by
        rcases hfica with ⟨rfl, -⟩ | hmx
        · rfl
        · have hxr : x.height ≤ r.height := hm x hmx
          omega
      refine ⟨fun _ => ?_, fun hno => (hno hsem).elim⟩
      rw [if_pos ⟨x, List.mem_cons_self, hgt⟩, disputas, disputa_maior hgt]
      exact hts
    · have hx' : ∀ t, some x = some t → t.height ≤ r.height := by
        rintro t ⟨⟩
        rcases hfica with ⟨rfl, -⟩ | hmx
        · exact hle
        · exact hm x hmx
      obtain ⟨hbom, hmau⟩ := ih hx' hts
      have hsup : (∃ t ∈ tip :: ts, r.height < t.height) ↔ ∃ t ∈ ts, r.height < t.height := by
        simp only [List.mem_cons, exists_eq_or_imp, not_lt.mpr hle, false_or]
      rw [semContradicao_cons hle]
      simp only [hsup]
      by_cases hc : tip.height = r.height → Concordam r tip
      · have hfica' : disputa (some r) tip = .ok r := by
          rcases hle.lt_or_eq with hlt | heq
          · exact disputa_menor hlt
          · exact disputa_concordam heq (hc heq)
        rw [disputas, hfica']
        refine ⟨fun hand => hbom hand.2, fun hno => hmau fun hsem => hno ⟨hc, hsem⟩⟩
      · refine ⟨fun hand => (hc hand.1).elim, fun _ => ⟨"peer-tip-fork", ?_⟩⟩
        obtain ⟨heq, hno⟩ : tip.height = r.height ∧ ¬ Concordam r tip := by
          simpa only [Classical.not_imp] using hc
        rw [disputas, disputa_fork heq hno]

/-- When one more report does not change an open gate: it is not listened to, or
it is not ahead and neither the reports of its height nor, when it is the best,
the local head contradict it. -/
def Inofensivo (localHeight : ℤ) (localHead : Option String) (antes depois : List (Option Status))
    (resposta : Option Status) : Prop :=
  match lerTip localHeight resposta with
  | none => True
  | some tip =>
    tip.height ≤ localHeight ∧
      ((∃ t ∈ tips localHeight antes, tip.height < t.height) ∨
        match (tips localHeight antes).find? (fun t => t.height = tip.height) with
        | some t => Concordam t tip
        | none =>
          SemContradicao tip (tips localHeight depois) ∧
          ((∀ t ∈ tips localHeight depois, t.height ≤ tip.height) → tip.height = localHeight →
            tip.hash = none ∨ tip.hash = localHead))

theorem decideAgainst_allow {m : Tip} {localHeight : ℤ} {localHead : Option String} :
    decideAgainst (some m) localHeight localHead false = .allow ↔
      m.height ≤ localHeight ∧
        (m.height = localHeight → m.hash = none ∨ m.hash = localHead) := by
  unfold decideAgainst maxLagBlocks
  dsimp only
  split_ifs with h1 h2 h3 h4
  · exact iff_of_false (fun h => nomatch h) fun h => by omega
  · exact iff_of_false (fun h => nomatch h) fun h => by omega
  · exact (h4.1).elim
  · exact iff_of_true rfl ⟨by omega, fun h => by omega⟩
  · have heq : m.height = localHeight := by omega
    rcases m with ⟨h, _ | a⟩
    · exact iff_of_true rfl ⟨by omega, fun _ => .inl rfl⟩
    · rcases localHead with _ | b
      · exact iff_of_false (fun h => nomatch h) fun h => by simpa using h.2 heq
      · by_cases hab : a = b
        · subst hab
          refine iff_of_true (if_pos rfl) ⟨by omega, fun _ => .inr rfl⟩
        · refine iff_of_false (by simp [hab]) fun h => ?_
          simpa [hab] using h.2 heq

/-- The gate opens for the tips it listens to when none contradict each other and
the best one is not ahead of the local tip nor against it. -/
theorem checkPeers_allow {respostas : List (Option Status)} {localHeight : ℤ}
    {localHead : Option String} :
    checkPeers respostas localHeight localHead = .allow ↔
      ∃ m, disputas none (tips localHeight respostas) = .ok m ∧
        ∀ t, m = some t → decideAgainst (some t) localHeight localHead false = .allow := by
  unfold checkPeers
  rw [melhorTip_eq]
  cases disputas none (tips localHeight respostas) with
  | error motivo => exact iff_of_false (fun h => nomatch h) fun ⟨m, hm, _⟩ => nomatch hm
  | ok m =>
    cases m with
    | none => exact iff_of_true rfl ⟨none, rfl, fun t ht => nomatch ht⟩
    | some t =>
      refine ⟨fun h => ⟨some t, rfl, ?_⟩, fun ⟨m, hm, h⟩ => h t (Except.ok.inj hm).symm⟩
      rintro u ⟨⟩
      exact h

section

variable {respostas antes depois : List (Option Status)} {resposta : Option Status}
  {localHeight : ℤ} {localHead : Option String}

theorem tips_insere {tip : Tip} (h : lerTip localHeight resposta = some tip) :
    tips localHeight (antes ++ resposta :: depois) =
      tips localHeight antes ++ tip :: tips localHeight depois := by
  rw [tips_append]
  exact congrArg _ (List.filterMap_cons_some h)

/-- A scan goes through the first reports before it reads the others. -/
theorem disputas_append_ok {m m' : Option Tip} {as bs : List Tip}
    (h : disputas m (as ++ bs) = .ok m') :
    ∃ x, disputas m as = .ok x ∧ disputas x bs = .ok m' := by
  rw [disputas_append] at h
  cases hx : disputas m as with
  | error motivo =>
    rw [hx] at h
    cases h
  | ok x =>
    rw [hx] at h
    exact ⟨x, rfl, h⟩

/-- An open gate has no report ahead of the local tip. -/
theorem le_of_checkPeers_allow (h : checkPeers respostas localHeight localHead = .allow) {t : Tip}
    (ht : t ∈ tips localHeight respostas) : t.height ≤ localHeight := by
  obtain ⟨m, hm, hdec⟩ := checkPeers_allow.mp h
  cases m with
  | none =>
    rw [(disputas_none hm).2] at ht
    exact (List.not_mem_nil ht).elim
  | some r => exact ((disputas_le hm).2 t ht).trans (decideAgainst_allow.mp (hdec r rfl)).1

/-- What the gate says once a tip was read after the first reports. -/
theorem checkPeers_insere {tip : Tip} {m : Option Tip} (ht : lerTip localHeight resposta = some tip)
    (hm : disputas none (tips localHeight antes) = .ok m) :
    checkPeers (antes ++ resposta :: depois) localHeight localHead = .allow ↔
      ∃ x r, disputa m tip = .ok x ∧ disputas (some x) (tips localHeight depois) = .ok (some r) ∧
        decideAgainst (some r) localHeight localHead false = .allow := by
  rw [checkPeers_allow, tips_insere ht, disputas_append, hm]
  dsimp only
  constructor
  · rintro ⟨m', hm', hdec⟩
    obtain ⟨x, hx, hts⟩ := disputas_cons_ok hm'
    cases m' with
    | none => cases (disputas_none hts).1
    | some r => exact ⟨x, r, hx, hts, hdec r rfl⟩
  · rintro ⟨x, r, hx, hts, hdec⟩
    refine ⟨some r, ?_, ?_⟩
    · rw [disputas, hx]
      exact hts
    · rintro u ⟨⟩
      exact hdec

/-- Whether one more report, at any place, leaves an open gate open. -/
theorem checkPeers_allow_iff_inofensivo
    (h : checkPeers (antes ++ depois) localHeight localHead = .allow) :
    checkPeers (antes ++ resposta :: depois) localHeight localHead = .allow ↔
      Inofensivo localHeight localHead antes depois resposta := by
  unfold Inofensivo
  cases hlido : lerTip localHeight resposta with
  | none =>
    have higuais : tips localHeight (antes ++ resposta :: depois) =
        tips localHeight (antes ++ depois) := by
      rw [tips_append, tips_append]
      exact congrArg _ (List.filterMap_cons_none hlido)
    refine iff_of_true ?_ trivial
    rw [checkPeers_allow, higuais]
    exact checkPeers_allow.mp h
  | some tip =>
    obtain ⟨m', hm', hdec⟩ := checkPeers_allow.mp h
    rw [tips_append] at hm'
    obtain ⟨m, hantes, hdepois⟩ := disputas_append_ok hm'
    have hfinal : ∀ x, disputa m tip = .ok x → some x = m →
        checkPeers (antes ++ resposta :: depois) localHeight localHead = .allow := by
      intro x hx hxm
      rw [checkPeers_insere hlido hantes]
      rw [← hxm] at hdepois
      cases m' with
      | none => cases (disputas_none hdepois).1
      | some r => exact ⟨x, r, hx, hdepois, hdec r rfl⟩
    dsimp only
    by_cases hfrente : tip.height ≤ localHeight
    case neg =>
      refine iff_of_false (fun hallow => hfrente ?_) fun hc => hfrente hc.1
      refine le_of_checkPeers_allow hallow ?_
      rw [tips_insere hlido]
      exact List.mem_append_right _ List.mem_cons_self
    rw [and_iff_right hfrente]
    by_cases hsup : ∃ t ∈ tips localHeight antes, tip.height < t.height
    · -- Superseded before it is read.
      obtain ⟨t, ht, hlt⟩ := hsup
      refine iff_of_true ?_ (.inl ⟨t, ht, hlt⟩)
      cases m with
      | none =>
        rw [(disputas_none hantes).2] at ht
        exact (List.not_mem_nil ht).elim
      | some x => exact hfinal x (disputa_menor (hlt.trans_le ((disputas_le hantes).2 t ht))) rfl
    · have hteto : ∀ t, m = some t → t.height ≤ tip.height := by
        rintro t rfl
        by_contra hlt
        rcases disputas_primeiro hantes with hc | ⟨-, hc⟩
        · cases hc
        · exact hsup ⟨t, List.mem_of_find?_eq_some hc, not_le.mp hlt⟩
      rw [or_iff_right hsup]
      cases hfind : (tips localHeight antes).find? (fun t => t.height = tip.height) with
      | some t =>
        -- The height of the best report: it only has to agree with it.
        obtain ⟨u, rfl⟩ : ∃ u, m = some u := by
          cases m with
          | none =>
            rw [(disputas_none hantes).2] at hfind
            cases hfind
          | some u => exact ⟨u, rfl⟩
        have ht : t.height = tip.height := by
          have := List.find?_some hfind
          exact of_decide_eq_true this
        have hu : u.height = tip.height := le_antisymm (hteto u rfl)
          (ht ▸ (disputas_le hantes).2 t (List.mem_of_find?_eq_some hfind))
        obtain rfl : u = t := by
          rcases disputas_primeiro hantes with hc | ⟨-, hc⟩
          · cases hc
          · rw [hu, hfind] at hc
            exact (Option.some.inj hc).symm
        by_cases hc : Concordam u tip
        · exact iff_of_true (hfinal u (disputa_concordam hu.symm hc) rfl) hc
        · refine iff_of_false (fun hallow => ?_) hc
          obtain ⟨x, r, hx, -⟩ := (checkPeers_insere hlido hantes).mp hallow
          rw [disputa_fork hu.symm hc] at hx
          cases hx
      | none =>
        -- A new best report: it has to stand against the reports still to come.
        have hx : disputa m tip = .ok tip := by
          cases m with
          | none => rfl
          | some u =>
            refine disputa_maior ((hteto u rfl).lt_of_ne fun heq => ?_)
            rcases disputas_primeiro hantes with hc | ⟨-, hc⟩
            · cases hc
            · rw [heq, hfind] at hc
              cases hc
        obtain ⟨hbom, hmau⟩ := disputas_com_lider hteto hdepois
        rw [checkPeers_insere hlido hantes]
        dsimp only
        by_cases hsem : SemContradicao tip (tips localHeight depois)
        case neg =>
          refine iff_of_false ?_ fun hc => hsem hc.1
          rintro ⟨x, r, hx', hr, -⟩
          obtain rfl : tip = x := Except.ok.inj (hx.symm.trans hx')
          obtain ⟨motivo, hmotivo⟩ := hmau hsem
          rw [hmotivo] at hr
          cases hr
        rw [and_iff_right hsem]
        have hfim := hbom hsem
        by_cases hmaior : ∃ t ∈ tips localHeight depois, tip.height < t.height
        · rw [if_pos hmaior] at hfim
          obtain ⟨t, ht, hlt⟩ := hmaior
          refine iff_of_true ?_ fun hc => absurd (hc t ht) (not_le.mpr hlt)
          cases m' with
          | none => cases (disputas_none hfim).1
          | some r => exact ⟨tip, r, hx, hfim, hdec r rfl⟩
        · rw [if_neg hmaior] at hfim
          have htodos : ∀ t ∈ tips localHeight depois, t.height ≤ tip.height := fun t ht =>
            not_lt.mp fun hlt => hmaior ⟨t, ht, hlt⟩
          rw [forall_prop_of_true htodos]
          constructor
          · rintro ⟨x, r, hx', hr, hallow⟩
            obtain rfl : tip = x := Except.ok.inj (hx.symm.trans hx')
            obtain rfl : tip = r := Option.some.inj (Except.ok.inj (hfim.symm.trans hr))
            exact (decideAgainst_allow.mp hallow).2
          · exact fun hc => ⟨tip, tip, hx, hfim, decideAgainst_allow.mpr ⟨hfrente, hc⟩⟩

end

/-- The report of a peer with a height and a head. -/
def relato (height : ℤ) (headHash : String) : Option Status := some ⟨some height, some headHash⟩

/-- Between two honest peers, a report two blocks behind changes nothing. -/
theorem checkPeers_atrasado :
    checkPeers ([relato 5 "a"] ++ relato 3 "b" :: [relato 5 "a"]) 5 (some "a") = .allow ↔
      Inofensivo 5 (some "a") [relato 5 "a"] [relato 5 "a"] (relato 3 "b") :=
  checkPeers_allow_iff_inofensivo (by decide)

/-- One claim of a block more than the local tip closes the gate. -/
theorem checkPeers_fecha_com_mentira :
    ¬ ∀ (localHeight : ℤ) (localHead : Option String) (antes depois : List (Option Status))
      (height : ℤ) (headHash : Option String),
      checkPeers (antes ++ depois) localHeight localHead = .allow →
        checkPeers (antes ++ some ⟨some height, headHash⟩ :: depois) localHeight localHead =
          .allow := by
  intro h
  have hfecha : checkPeers ([relato 5 "a"] ++ relato 6 "b" :: []) 5 (some "a") =
      .hold "catching-up" := by decide
  have habre := h 5 (some "a") [relato 5 "a"] [] 6 (some "b") (by decide)
  cases hfecha.symm.trans habre

end Eav7.Follow
