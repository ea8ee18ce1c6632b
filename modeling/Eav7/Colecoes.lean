import Eav7.Posse
import Eav7.Prova

/-!
# The collections over a run

The ids of a collection grow with every mint, an approval is the standing word of the
owner of an item, and no item changes hands without its owner's consent.
-/

namespace Eav7

open Base

variable {amb : Ambiente} {s s₀ t : State} {a : Acao} {passado : List (State × Acao)}
  {cid tokenId dono quem : String} {ac : Acervo String String} {l : Lance String String}
  {b : String → Option (Acervo String String)}

def State.donoDe (s : State) (cid tokenId : String) : Option String :=
  (s.acervos cid).bind (·.dono tokenId)

def State.aprovadoDe (s : State) (cid tokenId : String) : Option String :=
  (s.acervos cid).bind (·.aprovado tokenId)

theorem acervos_eq_some : s.acervos cid = some ac ↔
    ∃ col, s.nfts.get? cid = some col ∧ col.acervo = ac :=
  Option.map_eq_some_iff

/-- The action mints the id of a collection. -/
def Cunha (x : State × Acao) (cid : String) (n : ℕ) : Prop :=
  ∃ tx col, x.2.Nomeia .nftMint tx cid ∧ x.1.nfts.get? cid = some col ∧ col.nextId = n

/-- The owner of a token approved somebody for it, and from then on the token did not move
and stayed with that owner. -/
def Concedida (amb : Ambiente) (passado : List (State × Acao))
    (cid tokenId dono quem : String) : Prop :=
  ∃ depois x antes tx, passado = depois ++ x :: antes ∧
    x.2.Nomeia .nftApprove tx cid ∧ tokenDe tx = tokenId ∧ tx.de = dono ∧ tx.para = some quem ∧
    ∀ y ∈ depois, ¬ y.2.Move amb y.1 cid tokenId ∧ y.1.donoDe cid tokenId = some dono

/-- How an owner consents to lose a token: by a transfer, of its own or of who is
approved, by a burn, or by an operation of its keys. -/
inductive Consente (amb : Ambiente) (s : State) (a : Acao) (cid tokenId dono : String) : Prop
  | entrega {tx : Tx} (h : a.Nomeia .nftTransfer tx cid) (htoken : tokenDe tx = tokenId)
      (hde : tx.de = dono ∨ s.aprovadoDe cid tokenId = some tx.de)
  | queima {tx : Tx} (h : a.Nomeia .nftBurn tx cid) (htoken : tokenDe tx = tokenId)
      (hde : tx.de = dono)
  | executa {para : String} (h : a.ExecutaEntrega amb s dono cid tokenId para)

/-! ## One step -/

theorem Permite.of_mint {tx : Tx} {cid' : String} (h : Permite amb s a cid' ac l)
    (hmint : a.Nomeia .nftMint tx cid) : cid' = cid ∧ ∃ para, l = .cunha para := by
  cases h with
  | cunha h => exact ⟨(h.unica hmint).2.2, _, rfl⟩
  | entrega h => cases (h.unica hmint).1
  | executa h =>
    rcases h.tipo with htipo | htipo <;> cases htipo.symm.trans hmint.tipo
  | aprova h => cases (h.unica hmint).1
  | queima h => cases (h.unica hmint).1

/-- Collections are created under new keys. -/
def Inedita (amb : Ambiente) (s : State) (a : Acao) : Prop :=
  ∀ txid ∈ a.id?, s.acervos (amb.cripto.eavHashOne (textoDaColecao txid)) = none

namespace MudaPosse

/-- A collection stays and never counts back. -/
theorem cresce (h : MudaPosse amb s a b) (hnova : Inedita amb s a) (hac : s.acervos cid = some ac) :
    ∃ novo, b cid = some novo ∧ ac.proximo ≤ novo.proximo := by
  cases h with
  | alheia => exact ⟨ac, hac, le_rfl⟩
  | cria htx htipo hid =>
    rename_i tx txid
    refine ⟨ac, ?_, le_rfl⟩
    rw [Function.update_of_ne, hac]
    rintro rfl
    have hlivre := hnova txid (by simp [Acao.id?, htx, hid])
    cases hlivre.symm.trans hac
  | joga hac' hl =>
    rename_i cid' ac' l
    by_cases hcid : cid = cid'
    · subst hcid
      obtain rfl := Option.some.inj (hac.symm.trans hac')
      exact ⟨_, Function.update_self _ _ _, Acervo.proximo_le_aplica l⟩
    · exact ⟨ac, (Function.update_of_ne hcid _ _).trans hac, le_rfl⟩

/-- A mint takes the next id. -/
theorem cunha (h : MudaPosse amb s a b) {n : ℕ} (hcunha : Cunha (s, a) cid n) :
    ∃ novo, b cid = some novo ∧ n < novo.proximo := by
  obtain ⟨tx, col, hmint, hcol, rfl⟩ := hcunha
  cases h with
  | alheia hmove hfora => exact absurd hmint.tipo hfora
  | cria htx htipo => cases htipo.symm.trans hmint.tipo
  | joga hac hl =>
    obtain ⟨rfl, para, rfl⟩ := hl.of_mint hmint
    obtain rfl := Option.some.inj ((acervos_eq_some.mpr ⟨col, hcol, rfl⟩).symm.trans hac)
    exact ⟨_, Function.update_self _ _ _, Nat.lt_succ_self _⟩

/-- What the new owner of an item shows: it was there, or it was just minted. -/
theorem surge (h : MudaPosse amb s a b) {novo : Acervo String String} {d : String}
    (hnovo : b cid = some novo) (hd : novo.dono tokenId = some d)
    (hausente : s.donoDe cid tokenId = none) :
    ∃ n, Cunha (s, a) cid n ∧ tokenId = toString n := by
  unfold State.donoDe at hausente
  cases h with
  | alheia =>
    rw [hnovo] at hausente
    cases hausente.symm.trans hd
  | cria htx htipo hid =>
    rw [Function.update_apply] at hnovo
    split_ifs at hnovo
    · cases hnovo
      cases hd
    · rw [hnovo] at hausente
      cases hausente.symm.trans hd
  | joga hac hl =>
    rename_i cid' ac l
    rw [Function.update_apply] at hnovo
    split_ifs at hnovo with hcid
    · subst hcid
      cases hnovo
      rw [hac] at hausente
      obtain ⟨d', hd'⟩ | ⟨⟨para, rfl⟩, htoken⟩ := Acervo.dono_of_aplica hl.cabe hd
      · cases hausente.symm.trans hd'
      · obtain ⟨col, hcol, rfl⟩ := acervos_eq_some.mp hac
        cases hl with
        | cunha h => exact ⟨_, ⟨_, col, h, hcol, rfl⟩, htoken⟩
    · rw [hnovo] at hausente
      cases hausente.symm.trans hd

/-- Who loses an item consents. -/
theorem consente (h : MudaPosse amb s a b) (hnova : Inedita amb s a)
    (hordem : ∀ {cid ac}, s.acervos cid = some ac → ac.EmOrdem (toString : ℕ → String))
    (hdono : s.donoDe cid tokenId = some dono) :
    (∃ novo, b cid = some novo ∧ novo.dono tokenId = some dono) ∨
      Consente amb s a cid tokenId dono := by
  obtain ⟨ac, hac, hdono⟩ := Option.bind_eq_some_iff.mp hdono
  cases h with
  | alheia => exact .inl ⟨ac, hac, hdono⟩
  | cria htx htipo hid =>
    rename_i tx txid
    refine .inl ⟨ac, ?_, hdono⟩
    rw [Function.update_of_ne, hac]
    rintro rfl
    have hlivre := hnova txid (by simp [Acao.id?, htx, hid])
    cases hlivre.symm.trans hac
  | joga hac' hl =>
    rename_i cid' ac' l
    by_cases hcid : cid = cid'
    case neg => exact .inl ⟨ac, (Function.update_of_ne hcid _ _).trans hac, hdono⟩
    subst hcid
    obtain rfl := Option.some.inj (hac.symm.trans hac')
    by_cases hmove : l.Move tokenId
    case neg =>
      refine .inl ⟨_, Function.update_self _ _ _, (Acervo.dono_aplica hmove ?_).trans hdono⟩
      rintro rfl
      cases ((hordem hac).livre toString_injective).symm.trans hdono
    cases hl with
    | cunha => cases hmove
    | aprova => cases hmove
    | entrega h hdono' hde =>
      obtain rfl : tokenDe _ = tokenId := hmove
      obtain rfl := Option.some.inj (hdono'.symm.trans hdono)
      refine .inr (.entrega h rfl (hde.imp_right fun h => ?_))
      unfold State.aprovadoDe
      rw [hac]
      exact h
    | executa h hdono' =>
      obtain rfl := hmove
      obtain rfl := Option.some.inj (hdono'.symm.trans hdono)
      exact .inr (.executa h)
    | queima h hdono' =>
      obtain rfl : tokenDe _ = tokenId := hmove
      obtain rfl := Option.some.inj (hdono'.symm.trans hdono)
      exact .inr (.queima h rfl rfl)

/-- An approval was just given by the owner, or it was there and the item neither moved nor
changed hands. -/
theorem aprovado (h : MudaPosse amb s a b) {novo : Acervo String String}
    (hordem : ∀ {cid ac}, s.acervos cid = some ac → ac.EmOrdem (toString : ℕ → String))
    (hnovo : b cid = some novo) (hquem : novo.aprovado tokenId = some quem) :
    (∃ tx, a.Nomeia .nftApprove tx cid ∧ tokenDe tx = tokenId ∧ tx.para = some quem ∧
      novo.dono tokenId = some tx.de) ∨
    (s.aprovadoDe cid tokenId = some quem ∧ s.donoDe cid tokenId = novo.dono tokenId ∧
      ¬ a.Move amb s cid tokenId) := by
  unfold State.aprovadoDe State.donoDe
  cases h with
  | alheia hmove =>
    rw [hnovo]
    exact .inr ⟨hquem, rfl, hmove _ _⟩
  | cria htx htipo hid =>
    rw [Function.update_apply] at hnovo
    split_ifs at hnovo
    · cases hnovo
      cases hquem
    · rw [hnovo]
      refine .inr ⟨hquem, rfl, fun hmove => ?_⟩
      cases hmove with
      | entrega h => cases htipo.symm.trans h.tipo
      | queima h => cases htipo.symm.trans h.tipo
      | executa h => rcases h.tipo with h | h <;> cases htipo.symm.trans h
  | joga hac hl =>
    rename_i cid' ac l
    rw [Function.update_apply] at hnovo
    split_ifs at hnovo with hcid
    case neg =>
      rw [hnovo]
      exact .inr ⟨hquem, rfl, fun hmove => hcid (hl.of_move hmove).1.symm⟩
    subst hcid
    cases hnovo
    obtain rfl | ⟨hquem, hmove⟩ := Acervo.aprovado_aplica hquem
    · cases hl with
      | aprova h hdono hquem => exact .inl ⟨_, h, rfl, hquem, hdono⟩
    · rw [hac]
      obtain ⟨d, hd⟩ := (hordem hac).respaldo hquem
      refine .inr ⟨hquem, (Acervo.dono_aplica hmove ?_).symm, fun h => hmove (hl.of_move h).2⟩
      rintro rfl
      cases ((hordem hac).livre toString_injective).symm.trans hd

end MudaPosse

/-! ## Over a run -/

/-- What holds of the collections after a run. -/
structure PosseEmDia (amb : Ambiente) (passado : List (State × Acao)) (s : State) : Prop where
  ordem : ∀ {cid ac}, s.acervos cid = some ac → ac.EmOrdem (toString : ℕ → String)
  nascida : ∀ {cid ac}, s.acervos cid = some ac →
    ∃ id ∈ idsDaExecucao passado, cid = amb.cripto.eavHashOne (textoDaColecao id)
  cunhada : ∀ x ∈ passado, ∀ {cid n}, Cunha x cid n →
    ∃ ac, s.acervos cid = some ac ∧ n < ac.proximo
  aprovada : ∀ {cid tokenId quem}, s.aprovadoDe cid tokenId = some quem →
    ∃ dono, s.donoDe cid tokenId = some dono ∧ Concedida amb passado cid tokenId dono quem

theorem mem_ids_cons {x : State × Acao} {id : String} (h : id ∈ idsDaExecucao passado) :
    id ∈ idsDaExecucao (x :: passado) := by
  unfold idsDaExecucao
  rw [List.filterMap_cons]
  split
  · exact h
  · exact List.mem_cons_of_mem _ h

theorem mem_ids_self {x : State × Acao} {id : String} (h : x.2.id? = some id) :
    id ∈ idsDaExecucao (x :: passado) := by
  unfold idsDaExecucao
  rw [List.filterMap_cons_some (f := fun x : State × Acao => x.2.id?) h]
  exact List.mem_cons_self

/-- A run that repeats no id begins with one that repeats none, and its last id is new. -/
theorem ids_of_cons (hids : (idsDaExecucao ((s, a) :: passado)).Nodup) :
    (idsDaExecucao passado).Nodup ∧ ∀ id ∈ a.id?, id ∉ idsDaExecucao passado := by
  unfold idsDaExecucao at hids ⊢
  cases hid : a.id? with
  | none =>
    rw [List.filterMap_cons_none (f := fun x : State × Acao => x.2.id?) hid] at hids
    exact ⟨hids, fun id hid => by cases hid⟩
  | some id =>
    rw [List.filterMap_cons_some (f := fun x : State × Acao => x.2.id?) hid] at hids
    obtain ⟨hnovo, hids⟩ := List.nodup_cons.mp hids
    exact ⟨hids, fun id' hid' => Option.some.inj hid' ▸ hnovo⟩

theorem textoDaColecao_inj {x y : String} (h : textoDaColecao x = textoDaColecao y) : x = y := by
  have hlista := congrArg String.toList h
  unfold textoDaColecao at hlista
  exact String.toList_inj.mp (by simpa [ToString.toString, String.toList_append] using hlista)

variable {T : Set String}

/-- A collection of a new transaction has a new key, as long as no two texts collide. -/
theorem inedita_of_ids (hT : Set.InjOn amb.cripto.eavHashOne T)
    (htextos : ∀ id ∈ idsDaExecucao ((s, a) :: passado), textoDaColecao id ∈ T)
    (hnascida : ∀ {cid ac}, s.acervos cid = some ac →
      ∃ id ∈ idsDaExecucao passado, cid = amb.cripto.eavHashOne (textoDaColecao id))
    (hnovo : ∀ id ∈ a.id?, id ∉ idsDaExecucao passado) : Inedita amb s a := by
  intro txid htxid
  by_contra hpresa
  obtain ⟨ac, hac⟩ := Option.ne_none_iff_exists'.mp hpresa
  obtain ⟨id, hid, hcid⟩ := hnascida hac
  have htexto := hT (htextos txid (mem_ids_self (x := (s, a)) htxid))
    (htextos id (mem_ids_cons hid)) hcid
  exact hnovo txid htxid (textoDaColecao_inj htexto ▸ hid)

theorem PosseEmDia.segue (h : PosseEmDia amb passado s) (hm : MudaPosse amb s a t.acervos)
    (hnova : Inedita amb s a) : PosseEmDia amb ((s, a) :: passado) t := by
  constructor
  case ordem =>
    intro cid ac hac
    revert hac
    generalize t.acervos = b at hm
    intro hac
    cases hm with
    | alheia => exact h.ordem hac
    | cria =>
      rw [Function.update_apply] at hac
      split_ifs at hac
      · cases hac
        exact Acervo.emOrdem_novo
      · exact h.ordem hac
    | joga hac' hl =>
      rw [Function.update_apply] at hac
      split_ifs at hac
      · cases hac
        exact (h.ordem hac').aplica hl.cabe
      · exact h.ordem hac
  case nascida =>
    intro cid ac hac
    have hantes : ∀ {cid ac}, s.acervos cid = some ac → ∃ id ∈ idsDaExecucao ((s, a) :: passado),
        cid = amb.cripto.eavHashOne (textoDaColecao id) := by
      intro cid ac hac
      obtain ⟨id, hid, hcid⟩ := h.nascida hac
      exact ⟨id, mem_ids_cons hid, hcid⟩
    revert hac
    generalize t.acervos = b at hm
    intro hac
    cases hm with
    | alheia => exact hantes hac
    | cria htx htipo hid =>
      rename_i tx txid
      rw [Function.update_apply] at hac
      split_ifs at hac with hcid
      · exact ⟨txid, mem_ids_self (by simp [Acao.id?, htx, hid]), hcid⟩
      · exact hantes hac
    | joga hac' hl =>
      rw [Function.update_apply] at hac
      split_ifs at hac with hcid
      · exact hantes (hcid ▸ hac')
      · exact hantes hac
  case cunhada =>
    intro x hx cid n hcunha
    rcases List.mem_cons.mp hx with rfl | hx
    · exact hm.cunha hcunha
    · obtain ⟨ac, hac, hn⟩ := h.cunhada x hx hcunha
      obtain ⟨novo, hnovo, hle⟩ := hm.cresce hnova hac
      exact ⟨novo, hnovo, hn.trans_le hle⟩
  case aprovada =>
    intro cid tokenId quem hquem
    obtain ⟨novo, hnovo, hquem⟩ := Option.bind_eq_some_iff.mp hquem
    have hdono : t.donoDe cid tokenId = novo.dono tokenId := by
      unfold State.donoDe
      rw [hnovo]
      rfl
    rw [hdono]
    obtain ⟨tx, hn, htoken, hpara, hde⟩ | ⟨hquem, hmesmo, hmove⟩ :=
      hm.aprovado h.ordem hnovo hquem
    · exact ⟨tx.de, hde, [], (s, a), passado, tx, rfl, hn, htoken, rfl, hpara,
        fun y hy => by cases hy⟩
    · obtain ⟨dono, hdono, depois, x, antes, tx, rfl, hn, htoken, hde, hpara, hdepois⟩ :=
        h.aprovada hquem
      refine ⟨dono, hmesmo ▸ hdono, (s, a) :: depois, x, antes, tx, rfl, hn, htoken, hde, hpara, ?_⟩
      intro y hy
      rcases List.mem_cons.mp hy with rfl | hy
      · exact ⟨hmove, hdono⟩
      · exact hdepois y hy

theorem posse_genese (hg : Genese amb s₀) : PosseEmDia amb [] s₀ := by
  have hvazio : s₀.acervos = fun _ => none := by
    refine (acervos_congr (s := {}) hg.le).trans (funext fun cid => ?_)
    rfl
  constructor
  case ordem =>
    intro cid ac hac
    cases (congrFun hvazio cid).symm.trans hac
  case nascida =>
    intro cid ac hac
    cases (congrFun hvazio cid).symm.trans hac
  case cunhada => exact fun x hx => by cases hx
  case aprovada =>
    intro cid tokenId quem hquem
    unfold State.aprovadoDe at hquem
    rw [hvazio] at hquem
    cases hquem

/-- A run that repeats no id keeps the collections, and every step finds them so. -/
theorem posse_execucao (hT : Set.InjOn amb.cripto.eavHashOne T)
    (htextos : ∀ id ∈ idsDaExecucao passado, textoDaColecao id ∈ T) (hg : Genese amb s₀)
    (h : Execucao amb s₀ passado s) (hids : (idsDaExecucao passado).Nodup) :
    PosseEmDia amb passado s ∧ ∀ depois x antes, passado = depois ++ x :: antes →
      PosseEmDia amb antes x.1 ∧ Inedita amb x.1 x.2 := by
  induction h with
  | inicio => exact ⟨posse_genese hg, fun depois x antes h => by simp at h⟩
  | segue h ha ih =>
    rename_i passado s t a
    obtain ⟨hids, hnovo⟩ := ids_of_cons hids
    obtain ⟨hdia, hantes⟩ := ih (fun id hid => htextos id (mem_ids_cons hid)) hids
    have hnova : Inedita amb s a := inedita_of_ids hT htextos hdia.nascida hnovo
    refine ⟨hdia.segue ha.mudaPosse hnova, fun depois x antes heq => ?_⟩
    cases depois with
    | nil =>
      cases heq
      exact ⟨hdia, hnova⟩
    | cons y depois =>
      injection heq with _ heq
      exact hantes depois x antes heq

theorem pairwise_of_cortes {α : Type} {R : α → α → Prop} {xs : List α}
    (h : ∀ depois y antes, xs = depois ++ y :: antes → ∀ x ∈ antes, R y x) : xs.Pairwise R := by
  induction xs with
  | nil => exact .nil
  | cons y xs ih =>
    refine .cons (h [] y xs rfl) (ih fun depois z antes heq => h (y :: depois) z antes ?_)
    rw [heq, List.cons_append]

/-- Over a run that repeats no id, without a collision of the keys of its collections: the
ids of a collection grow with each mint and stay below the next one; what is approved is
the standing word of the owner of an item that exists; items appear by a mint alone, and
one that loses its owner has the owner's consent. -/
theorem posse_disciplinada (hT : Set.InjOn amb.cripto.eavHashOne T)
    (htextos : ∀ id ∈ idsDaExecucao passado, textoDaColecao id ∈ T) (hg : Genese amb s₀)
    (h : Execucao amb s₀ passado s) (hids : (idsDaExecucao passado).Nodup) :
    (∀ x ∈ passado, ∀ cid n, Cunha x cid n →
      ∃ col, s.nfts.get? cid = some col ∧ n < col.nextId) ∧
    (passado.Pairwise fun y x => ∀ cid m n, Cunha y cid m → Cunha x cid n → n < m) ∧
    (∀ cid tokenId quem, s.aprovadoDe cid tokenId = some quem →
      ∃ dono, s.donoDe cid tokenId = some dono ∧ Concedida amb passado cid tokenId dono quem) ∧
    ∀ x ∈ passado, ∀ t, x.2.Aceita amb x.1 t → ∀ cid tokenId,
      (∀ dono, x.1.donoDe cid tokenId = none → t.donoDe cid tokenId = some dono →
        ∃ n, Cunha x cid n ∧ tokenId = toString n) ∧
      ∀ dono, x.1.donoDe cid tokenId = some dono → t.donoDe cid tokenId ≠ some dono →
        Consente amb x.1 x.2 cid tokenId dono := by
  obtain ⟨hdia, hantes⟩ := posse_execucao hT htextos hg h hids
  refine ⟨fun x hx cid n hcunha => ?_, ?_, fun cid tokenId quem => hdia.aprovada,
    fun x hx t ht cid tokenId => ⟨fun dono hausente hd => ?_, fun dono hdono hmuda => ?_⟩⟩
  · obtain ⟨ac, hac, hn⟩ := hdia.cunhada x hx hcunha
    obtain ⟨col, hcol, rfl⟩ := acervos_eq_some.mp hac
    exact ⟨col, hcol, hn⟩
  · refine pairwise_of_cortes fun depois y antes heq x hx cid m n hy hx' => ?_
    obtain ⟨ac, hac, hn⟩ := (hantes depois y antes heq).1.cunhada x hx hx'
    obtain ⟨tx, col, -, hcol, rfl⟩ := hy
    obtain rfl := Option.some.inj ((acervos_eq_some.mpr ⟨col, hcol, rfl⟩).symm.trans hac)
    exact hn
  · obtain ⟨novo, hnovo, hd⟩ := Option.bind_eq_some_iff.mp hd
    exact ht.mudaPosse.surge hnovo hd hausente
  · obtain ⟨depois, antes, rfl⟩ := List.append_of_mem hx
    obtain ⟨hdia, hnova⟩ := hantes depois x antes rfl
    obtain ⟨novo, hnovo, hd⟩ | hconsente := ht.mudaPosse.consente hnova hdia.ordem hdono
    · refine absurd ?_ hmuda
      unfold State.donoDe
      rw [hnovo]
      exact hd
    · exact hconsente

/-! ## A token approved for another -/

def camposCunha : Tx :=
  { txType := "NFT_MINT", de := "", para := some enderecoA, nonce := 2, timestamp := 1, fee := "0"
    data := some (.map [("collection", .str idDaColecao)]) }

/-- The token is named by a number in a list. -/
def camposAprova : Tx :=
  { txType := "NFT_APPROVE", de := "", para := some enderecoB, nonce := 3, timestamp := 1
    fee := "0"
    data := some (.map [("collection", .str idDaColecao), ("tokenId", .list [.int 1])]) }

/-- A creates a collection, mints a token to itself and approves B for it. -/
def roteiroPosse : List Ato :=
  [⟨chaveIdeal 0, enderecoA, camposColecao, .nftCreate, 1, 1, 1, ⟨0, 3680⟩, 0⟩,
    ⟨chaveIdeal 0, enderecoA, camposCunha, .nftMint, 1, 1, 2, ⟨0, 5039⟩, 0⟩,
    ⟨chaveIdeal 0, enderecoA, camposAprova, .nftApprove, 1, 1, 3, ⟨0, 6063⟩, 0⟩]

def passadoPosse : List (State × Acao) := passadoDe ambienteIdeal estadoNft [] roteiroPosse

def estadoPosse : State := encena ambienteIdeal estadoNft roteiroPosse

def textosPosse : List String := (idsDaExecucao passadoPosse).map textoDaColecao

instance roteiro_posse : Fact (ensaia ambienteIdeal estadoNft roteiroPosse = true ∧
    estadoPosse.aprovadoDe idDaColecao "1" = some enderecoB ∧
    estadoPosse.donoDe idDaColecao "1" = some enderecoA ∧
    (idsDaExecucao passadoPosse).Nodup ∧
    (textosPosse.map fun s => criptoIdeal.sha3 (bytesDe s)).Nodup) where
  out := by
    unfold textosPosse passadoPosse estadoPosse
    rw [ambienteIdeal_eq, criptoIdeal_eq]
    decide +kernel

theorem aprovacao_concedida :
    Concedida ambienteIdeal passadoPosse idDaColecao "1" enderecoA enderecoB := by
  obtain ⟨hensaia, haprovado, hdono, hids, htextos⟩ := roteiro_posse.out
  have hexec : Execucao ambienteIdeal estadoNft passadoPosse estadoPosse := by
    refine execucao_de_ensaia digere_ideal (fun ato hato => trio_capaz _ ?_) .inicio hensaia
    simp only [roteiroPosse, List.mem_cons, List.not_mem_nil, or_false] at hato
    rcases hato with rfl | rfl | rfl <;> simp [trio]
  have hT := Cripto.injOn_eavHashOne htextos
  obtain ⟨-, -, haprovadas, -⟩ := @posse_disciplinada ambienteIdeal _ _ _ _ hT
    (fun id hid => List.mem_map_of_mem hid) genese_nft hexec hids
  obtain ⟨dono, hdono', hconcedida⟩ := haprovadas _ _ _ haprovado
  obtain rfl := Option.some.inj (hdono.symm.trans hdono')
  exact hconcedida

end Eav7
