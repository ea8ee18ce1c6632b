import Eav7.Suprimento

/-!
# The controls of a token

Pause, blacklist and freeze, over every path that moves a balance. The transfers obey
them; the bridge does not look at them.
-/

namespace Eav7

open Base

variable {amb : Ambiente} {s t s₀ : State} {a : Acao} {id : String} {tk : Token}

/-- What an address has frozen that only unlocks above a height. -/
def Token.congelado (tk : Token) (addr : String) (height : ℕ) : ℕ :=
  match tk.frozen.get? addr with
  | some (congelado, unlockAt) => if height < unlockAt then congelado else 0
  | none => 0

theorem Token.disponivel_eq (tk : Token) (addr : String) (height : ℕ) :
    tk.disponivel addr height = tk.saldo addr - tk.congelado addr height := by
  unfold disponivel congelado
  cases tk.frozen.get? addr with
  | none => rfl
  | some f =>
    dsimp only
    split_ifs <;> rfl

theorem Token.add_congelado_le {addr : String} {height x : ℕ} (hx : 0 < x)
    (h : x ≤ tk.disponivel addr height) : x + tk.congelado addr height ≤ tk.saldo addr := by
  have hsub : ∀ b c x : ℕ, 0 < x → x ≤ b - c → x + c ≤ b := by omega
  rw [Token.disponivel_eq] at h
  exact hsub _ _ _ hx h

/-- What an address holds of a token, nothing of one that does not exist. -/
def State.saldoEm (s : State) (id addr : String) : ℕ :=
  (s.tokens.get? id).elim 0 (·.saldo addr)

theorem saldoEm_of_get? (h : s.tokens.get? id = some tk) (addr : String) :
    s.saldoEm id addr = tk.saldo addr := by
  unfold State.saldoEm
  rw [h]
  rfl

theorem saldoEm_eq (s : State) (id addr : String) :
    s.saldoEm id addr = (s.livro.fichas id).elim 0 fun f => f.saldos.getD addr 0 := by
  unfold State.saldoEm
  change _ = ((s.tokens.get? id).map Token.ficha).elim 0 _
  cases s.tokens.get? id <;> rfl

/-- A posting moves what it names of its token, and nothing of the others. -/
theorem saldoEm_posta {l : Lancamento String} (htk : s.tokens.get? id = some tk)
    (ht : t.livro = s.livro.posta id tk.ficha l) (hcabe : (s.livro.razao id tk.ficha).Cabe l)
    (outro addr : String) :
    t.saldoEm outro addr + (if outro = id then l.sai addr else 0) =
      s.saldoEm outro addr + if outro = id then l.entra addr else 0 := by
  rw [saldoEm_eq t, ht]
  unfold Livro.posta
  rw [Livro.fichas_comTravado, Livro.fichas_comFicha]
  split_ifs with hid
  · subst hid
    rw [saldoEm_of_get? htk]
    exact Razao.saldo_aplica hcabe addr
  · rw [saldoEm_eq s]

/-! ## The claim on one action -/

/-- What leaves a holder, but by a burn or a mint, leaves a token that is not paused and a
holder that is not blacklisted, within what is not frozen; and nobody blacklisted
receives, but by a mint. -/
structure RespeitaControles (a : Acao) (s t : State) : Prop where
  saida : a.tipo? ≠ some .tokenBurn → a.tipo? ≠ some .tokenMint → ∀ id addr,
    t.saldoEm id addr < s.saldoEm id addr → ∃ tk, s.tokens.get? id = some tk ∧
      tk.paused = false ∧ tk.bloqueado addr = false ∧
      s.saldoEm id addr - t.saldoEm id addr + tk.congelado addr a.height ≤ s.saldoEm id addr
  entrada : a.tipo? ≠ some .tokenMint → ∀ id addr tk, s.tokens.get? id = some tk →
    tk.bloqueado addr = true → t.saldoEm id addr ≤ s.saldoEm id addr

/-- What an outgoing transfer locks of a token and what an incoming one releases pass the
controls that the bridge does not check. -/
structure PontePassaPelaGuarda (s : State) (a : Acao) : Prop where
  saida : ∀ tx id (x : ℕ) tk, a.tx? = some tx → a.saida? = some (some id, x) →
    s.tokens.get? id = some tk →
      tk.paused = false ∧ tk.bloqueado tx.de = false ∧
        x + tk.congelado tx.de a.height ≤ tk.saldo tx.de
  entrada : ∀ dep id tk, a.deposito? s = some dep → dep.token = some id →
    s.tokens.get? id = some tk → tk.bloqueado dep.para = false

theorem RespeitaControles.parado (h : ∀ id addr, t.saldoEm id addr = s.saldoEm id addr) :
    RespeitaControles a s t where
  saida _ _ id addr hlt := absurd (h id addr) hlt.ne
  entrada _ id addr _ _ _ := (h id addr).le

/-- Creating a token takes from nobody and gives only of the new token. -/
theorem RespeitaControles.cria {f : Ficha} (hnova : s.tokens.get? id = none)
    (ht : t.livro = s.livro.comFicha id f) : RespeitaControles a s t := by
  have houtro : ∀ k addr, k ≠ id → t.saldoEm k addr = s.saldoEm k addr := by
    intro k addr hk
    rw [saldoEm_eq, saldoEm_eq, ht, Livro.fichas_comFicha, if_neg hk]
  constructor
  case saida =>
    intro _ _ k addr hlt
    by_cases hk : k = id
    · subst hk
      unfold State.saldoEm at hlt
      rw [hnova] at hlt
      exact absurd hlt (Nat.not_lt_zero _)
    · exact absurd (houtro k addr hk) hlt.ne
  case entrada =>
    intro _ k addr tk htk _
    refine (houtro k addr ?_).le
    rintro rfl
    cases hnova.symm.trans htk

/-- A posting obeys the controls when its giver and its receiver pass them. -/
theorem RespeitaControles.posta {l : Lancamento String} (htk : s.tokens.get? id = some tk)
    (ht : t.livro = s.livro.posta id tk.ficha l) (hcabe : (s.livro.razao id tk.ficha).Cabe l)
    (hsai : a.tipo? ≠ some .tokenBurn → ∀ addr, l.sai addr ≠ 0 → tk.paused = false ∧
      tk.bloqueado addr = false ∧ l.sai addr + tk.congelado addr a.height ≤ tk.saldo addr)
    (hentra : a.tipo? ≠ some .tokenMint → ∀ addr, l.entra addr ≠ 0 →
      tk.bloqueado addr = false) : RespeitaControles a s t := by
  have hmove := saldoEm_posta htk ht hcabe
  constructor
  case saida =>
    intro hburn _ k addr hlt
    have hk := hmove k addr
    split_ifs at hk with hid
    · subst hid
      have hsaldo := saldoEm_of_get? htk addr
      obtain ⟨hpausa, hlivre, hdisponivel⟩ := hsai hburn addr (by omega)
      exact ⟨tk, htk, hpausa, hlivre, by omega⟩
    · exact absurd hk hlt.ne
  case entrada =>
    intro hmint k addr tk' htk' hbloqueado
    have hk := hmove k addr
    split_ifs at hk with hid
    · subst hid
      obtain rfl := Option.some.inj (htk.symm.trans htk')
      have hzero : l.entra addr = 0 := by
        by_contra hne
        rw [hentra hmint addr hne] at hbloqueado
        cases hbloqueado
      omega
    · exact hk.le

/-! ## The actions -/

namespace BridgeTx

theorem valorPositivo_pos {tx : Tx} {x : ℕ} (h : valorPositivo tx = .ok x) : 0 < x := by
  obtain ⟨_, -, h⟩ := except_bind_eq_ok.mp h
  obtain ⟨_, hx, h⟩ := except_bind_eq_ok.mp h
  obtain rfl := Except.ok.inj h
  exact Nat.pos_of_ne_zero (recusar_eq_ok.mp hx)

theorem lerSaida_pos {tx : Tx} {ativo : Option String} {x : ℕ}
    (h : lerSaida tx = .ok (ativo, x)) : 0 < x := by
  obtain ⟨_, -, h⟩ := except_bind_eq_ok.mp h
  obtain ⟨_, hx, h⟩ := except_bind_eq_ok.mp h
  obtain ⟨_, -, h⟩ := except_bind_eq_ok.mp h
  obtain ⟨-, rfl⟩ := Prod.mk.inj (Except.ok.inj h)
  exact valorPositivo_pos hx

theorem lerDeposito_pos {tx : Tx} {dep : Deposito} (h : lerDeposito s tx = .ok dep) :
    (0 : ℕ) < dep.amount := by
  obtain ⟨_, -, h⟩ := except_bind_eq_ok.mp h
  obtain ⟨_, -, h⟩ := except_bind_eq_ok.mp h
  obtain ⟨_, -, h⟩ := except_bind_eq_ok.mp h
  obtain ⟨_, -, h⟩ := except_bind_eq_ok.mp h
  obtain ⟨_, -, h⟩ := except_bind_eq_ok.mp h
  obtain ⟨_, -, h⟩ := except_bind_eq_ok.mp h
  obtain ⟨_, hx, h⟩ := except_bind_eq_ok.mp h
  obtain ⟨_, -, h⟩ := except_bind_eq_ok.mp h
  obtain rfl := Except.ok.inj h
  exact valorPositivo_pos hx

end BridgeTx

theorem Acao.saida?_eq_some {ativo : Option String} {x : Amount}
    (h : a.saida? = some (ativo, x)) : a.tipo? = some .bridgeOut ∧
      ∃ tx, a.tx? = some tx ∧ BridgeTx.lerSaida tx = .ok (ativo, x) := by
  unfold Acao.saida? at h
  split_ifs at h with htipo
  obtain ⟨tx, htx, hler⟩ := Option.bind_eq_some_iff.mp h
  refine ⟨htipo, tx, htx, ?_⟩
  cases hx : BridgeTx.lerSaida tx with
  | ok r => rw [hx] at hler; exact congrArg _ (Option.some.inj hler)
  | error e => rw [hx] at hler; cases hler

theorem Acao.deposito?_eq_some {dep : BridgeTx.Deposito} (h : a.deposito? s = some dep) :
    a.tipo? = some .bridgeIn ∧
      ∃ tx, a.tx? = some tx ∧ BridgeTx.lerDeposito s tx = .ok dep := by
  unfold Acao.deposito? at h
  split_ifs at h with htipo
  obtain ⟨tx, htx, hler⟩ := Option.bind_eq_some_iff.mp h
  refine ⟨htipo, tx, htx, ?_⟩
  cases hx : BridgeTx.lerDeposito s tx with
  | ok r => rw [hx] at hler; exact congrArg _ (Option.some.inj hler)
  | error e => rw [hx] at hler; cases hler

/-- A transfer that its token authorised passed the guard. -/
theorem MudaLivro.respeita (h : MudaLivro s a t.livro) (hpassa : PontePassaPelaGuarda s a) :
    RespeitaControles a s t := by
  generalize hb : t.livro = b at h
  cases h with
  | nada =>
    refine .parado fun id addr => ?_
    rw [saldoEm_eq, saldoEm_eq, hb]
  | cria htx htipo hnova hid hsaldos hlimite => exact .cria hnova hb
  | posta htk hautoriza hcabe hlimite =>
    refine .posta htk hb hcabe (fun hburn addr hsai => ?_) fun hmint addr hentra => ?_
    · cases hautoriza with
      | transfere hpausa hde hpara hx hdisponivel =>
        simp only [Lancamento.sai, ne_eq, ite_eq_right_iff, Classical.not_imp] at hsai ⊢
        obtain ⟨rfl, -⟩ := hsai
        rw [if_pos rfl]
        exact ⟨hpausa, hde, Token.add_congelado_le hx hdisponivel⟩
      | emite => exact absurd rfl hsai
      | queima htx htipo => exact absurd htipo hburn
      | trava htx hsaida =>
        simp only [Lancamento.sai, ne_eq, ite_eq_right_iff, Classical.not_imp] at hsai ⊢
        obtain ⟨rfl, -⟩ := hsai
        rw [if_pos rfl]
        exact hpassa.saida _ _ _ _ htx hsaida htk
      | libera => exact absurd rfl hsai
    · cases hautoriza with
      | transfere hpausa hde hpara hx hdisponivel =>
        simp only [Lancamento.entra, ne_eq, ite_eq_right_iff, Classical.not_imp] at hentra
        exact hentra.1 ▸ hpara
      | emite htx htipo => exact absurd htipo hmint
      | queima => exact absurd rfl hentra
      | trava => exact absurd rfl hentra
      | libera hdep htoken =>
        simp only [Lancamento.entra, ne_eq, ite_eq_right_iff, Classical.not_imp] at hentra
        exact hentra.1 ▸ hpassa.entrada _ _ _ hdep htoken htk

theorem travados_posta (b : Livro) (f : Ficha) (l : Lancamento String) (k : String) :
    (b.posta id f l).travados k =
      if k = id then ((b.razao id f).aplica l).reserva else b.travados k :=
  Livro.travados_comTravado id k _

/-- An accepted outgoing transfer of a token locks what it names. -/
theorem Acao.Aceita.trava {tx : Tx} {x : Amount} (ha : a.Aceita amb s t) (hs : s.livro.EmDia)
    (htx : a.tx? = some tx) (hsaida : a.saida? = some (some id, x))
    (htk : s.tokens.get? id = some tk) :
    t.livro = s.livro.posta id tk.ficha (.trava tx.de x) ∧
      (s.livro.razao id tk.ficha).Cabe (.trava tx.de x) := by
  have htravado : s.livro.travados id < t.livro.travados id := by
    obtain ⟨-, tx', -, hler⟩ := Acao.saida?_eq_some hsaida
    have hx := BridgeTx.lerSaida_pos hler
    have hponte := ha.mudaPonte
    change s.bridge.lockedTokens.getD id 0 < t.bridge.lockedTokens.getD id 0
    generalize t.bridge = b at hponte
    cases hponte with
    | alheia hnada => cases hsaida.symm.trans hnada
    | liquida hnada => cases hsaida.symm.trans hnada
    | trava houtra =>
      obtain ⟨rfl, rfl⟩ := Prod.mk.inj (Option.some.inj (hsaida.symm.trans houtra))
      refine lt_of_lt_of_eq ?_ ((OrdMap.getD_insert _ _ _ _ _).trans (if_pos rfl)).symm
      exact Nat.lt_add_of_pos_right hx
    | solta _ _ hnada => cases hsaida.symm.trans hnada
  have hmuda := ha.mudaLivro hs
  generalize hb : t.livro = b at hmuda htravado
  cases hmuda with
  | nada => exact absurd htravado (lt_irrefl _)
  | cria => exact absurd htravado (lt_irrefl _)
  | posta htk' hautoriza hcabe hlimite =>
    rename_i id' tk' l
    rw [travados_posta] at htravado
    split_ifs at htravado with hid
    · subst hid
      obtain rfl := Option.some.inj (htk.symm.trans htk')
      cases hautoriza with
      | transfere => exact absurd htravado (lt_irrefl _)
      | emite => exact absurd htravado (lt_irrefl _)
      | queima => exact absurd htravado (lt_irrefl _)
      | trava htx' hsaida' =>
        obtain rfl := Option.some.inj (htx.symm.trans htx')
        obtain ⟨-, rfl⟩ := Prod.mk.inj (Option.some.inj (hsaida.symm.trans hsaida'))
        exact ⟨rfl, hcabe⟩
      | libera => exact absurd htravado (Nat.not_lt.mpr (Nat.sub_le _ _))
    · exact absurd htravado (lt_irrefl _)

/-- An accepted deposit of a token releases what it names. -/
theorem Acao.Aceita.libera {dep : BridgeTx.Deposito} (ha : a.Aceita amb s t) (hs : s.livro.EmDia)
    (hdep : a.deposito? s = some dep) (htoken : dep.token = some id)
    (htk : s.tokens.get? id = some tk) :
    t.livro = s.livro.posta id tk.ficha (.libera dep.para dep.amount) ∧
      (s.livro.razao id tk.ficha).Cabe (.libera dep.para dep.amount) := by
  have htravado : t.livro.travados id < s.livro.travados id := by
    obtain ⟨-, tx, -, hler⟩ := Acao.deposito?_eq_some hdep
    have hx := BridgeTx.lerDeposito_pos hler
    have hponte := ha.mudaPonte
    change t.bridge.lockedTokens.getD id 0 < s.bridge.lockedTokens.getD id 0
    generalize t.bridge = b at hponte
    cases hponte with
    | alheia _ hnada => cases hdep.symm.trans hnada
    | liquida _ hnada => cases hdep.symm.trans hnada
    | trava _ hnada => cases hdep.symm.trans hnada
    | solta htx hheight hsaida houtro hconf hle =>
      obtain rfl := Option.some.inj (hdep.symm.trans houtro)
      rw [htoken] at hle ⊢
      have hle : dep.amount ≤ s.bridge.lockedTokens.getD id 0 := hle
      refine lt_of_eq_of_lt ((OrdMap.getD_insert _ _ _ _ _).trans (if_pos rfl)) ?_
      exact Nat.sub_lt (Nat.lt_of_lt_of_le hx hle) hx
  have hmuda := ha.mudaLivro hs
  generalize hb : t.livro = b at hmuda htravado
  cases hmuda with
  | nada => exact absurd htravado (lt_irrefl _)
  | cria => exact absurd htravado (lt_irrefl _)
  | posta htk' hautoriza hcabe hlimite =>
    rename_i id' tk' l
    rw [travados_posta] at htravado
    split_ifs at htravado with hid
    · subst hid
      obtain rfl := Option.some.inj (htk.symm.trans htk')
      cases hautoriza with
      | transfere => exact absurd htravado (lt_irrefl _)
      | emite => exact absurd htravado (lt_irrefl _)
      | queima => exact absurd htravado (lt_irrefl _)
      | trava => exact absurd htravado (Nat.not_lt.mpr (Nat.le_add_right _ _))
      | libera hdep' htoken' =>
        obtain rfl := Option.some.inj (hdep.symm.trans hdep')
        exact ⟨rfl, hcabe⟩
    · exact absurd htravado (lt_irrefl _)

/-- An accepted action obeys the controls of the tokens exactly when the bridge's part of
it passes them. -/
theorem respeita_iff (hs : s.livro.EmDia) (ha : a.Aceita amb s t) :
    RespeitaControles a s t ↔ PontePassaPelaGuarda s a := by
  refine ⟨fun h => ⟨fun tx id x tk htx hsaida htk => ?_, fun dep id tk hdep htoken htk => ?_⟩,
    (ha.mudaLivro hs).respeita⟩
  · obtain ⟨ht, hcabe⟩ := ha.trava hs htx hsaida htk
    obtain ⟨htipo, tx', htx', hler⟩ := Acao.saida?_eq_some hsaida
    have hx := BridgeTx.lerSaida_pos hler
    have hmove := saldoEm_posta htk ht hcabe id tx.de
    rw [if_pos rfl, if_pos rfl] at hmove
    simp only [Lancamento.sai, Lancamento.entra, if_true, Nat.add_zero] at hmove
    obtain ⟨tk', htk', hpausa, hlivre, hdisponivel⟩ :=
      h.saida (by simp [htipo]) (by simp [htipo]) id tx.de (by omega)
    obtain rfl := Option.some.inj (htk.symm.trans htk')
    rw [saldoEm_of_get? htk] at hmove hdisponivel
    exact ⟨hpausa, hlivre, by omega⟩
  · obtain ⟨ht, hcabe⟩ := ha.libera hs hdep htoken htk
    obtain ⟨htipo, tx, -, hler⟩ := Acao.deposito?_eq_some hdep
    have hx := BridgeTx.lerDeposito_pos hler
    have hmove := saldoEm_posta htk ht hcabe id dep.para
    rw [if_pos rfl, if_pos rfl] at hmove
    simp only [Lancamento.sai, Lancamento.entra, if_true, Nat.add_zero] at hmove
    by_contra hbloqueado
    have hle := h.entrada (by simp [htipo]) id dep.para tk htk (Bool.not_eq_false _ ▸ hbloqueado)
    omega

/-- In every reached state, an accepted action obeys pause, blacklist and freeze exactly
when it is not an outgoing transfer of a token that is paused, or whose sender is
blacklisted or has not that much free, nor a deposit of a token to an address that it
blacklists. -/
theorem controles_iff {passado : List (State × Acao)} (hg : Genese amb s₀)
    (h : Execucao amb s₀ passado s) (ha : a.Aceita amb s t) :
    RespeitaControles a s t ↔ PontePassaPelaGuarda s a :=
  respeita_iff (livro_execucao hg h) ha

/-! ## A paused token that leaves -/

def camposPausa : Tx :=
  { txType := "TOKEN_PAUSE", de := "", nonce := 2, timestamp := 1, fee := "0"
    data := some (.map [("token", .str idDaMoeda)]) }

/-- Five of the nine units of the token, to another chain. -/
def camposMoedaSai (nonce : ℕ) : Tx :=
  { txType := "BRIDGE_OUT", de := "", nonce := nonce, timestamp := 1, amount := "5", fee := "0"
    data := some (.map [("targetAddress", .str "0xabcd"), ("targetChain", .str "ETH"),
      ("token", .str idDaMoeda)]) }

def estadoMoeda : State := depoisDeA camposMoeda .tokenCreate estadoPonte 1 1 ⟨0, 4010⟩ 0

def estadoPausado : State := depoisDeA camposPausa .tokenPause estadoMoeda 1 2 ⟨0, 5034⟩ 0

def moedaSai (nonce : ℕ) : Acao := .transacao (assinaA (camposMoedaSai nonce)) 1 1

def depoisDaMoeda : State :=
  depoisDeA (camposMoedaSai 2) .bridgeOut estadoMoeda 1 2 ⟨0, 5034⟩ 0

def depoisDaPausa : State :=
  depoisDeA (camposMoedaSai 3) .bridgeOut estadoPausado 1 3 ⟨0, 6058⟩ 0

instance roteiro_moeda : Fact
    (pronta ambienteComite (chaveIdeal 0) enderecoA camposMoeda .tokenCreate estadoPonte 1 1 1
      ⟨0, 4010⟩ 0 = true ∧
    pronta ambienteComite (chaveIdeal 0) enderecoA camposPausa .tokenPause estadoMoeda 1 1 2
      ⟨0, 5034⟩ 0 = true ∧
    pronta ambienteComite (chaveIdeal 0) enderecoA (camposMoedaSai 2) .bridgeOut estadoMoeda 1 1 2
      ⟨0, 5034⟩ 0 = true ∧
    pronta ambienteComite (chaveIdeal 0) enderecoA (camposMoedaSai 3) .bridgeOut estadoPausado 1 1
      3 ⟨0, 6058⟩ 0 = true ∧
    (estadoMoeda.tokens.get? idDaMoeda).all (fun tk => tk.paused = false ∧
      tk.bloqueado enderecoA = false ∧ 5 + tk.congelado enderecoA 1 ≤ tk.saldo enderecoA) = true ∧
    (estadoPausado.tokens.get? idDaMoeda).map (·.paused) = some true ∧
    depoisDaPausa.saldoEm idDaMoeda enderecoA < estadoPausado.saldoEm idDaMoeda enderecoA) where
  out := by
    unfold depoisDaPausa estadoPausado estadoMoeda depoisDeA assinaA
    rw [ambienteComite_eq, criptoComite_eq]
    decide +kernel

theorem execucao_moeda : Execucao ambienteComite estadoPonte
    [(estadoPonte, .transacao (assinaA camposMoeda) 1 1)] estadoMoeda :=
  Percurso.umPasso (aceita_de_A roteiro_moeda.out.1)

theorem execucao_pausada : Execucao ambienteComite estadoPonte
    [(estadoMoeda, .transacao (assinaA camposPausa) 1 1),
      (estadoPonte, .transacao (assinaA camposMoeda) 1 1)] estadoPausado :=
  execucao_moeda.segue (aceita_de_A roteiro_moeda.out.2.1)

theorem moeda_sai : (moedaSai 2).Aceita ambienteComite estadoMoeda depoisDaMoeda :=
  aceita_de_A roteiro_moeda.out.2.2.1

theorem moeda_pausada_sai : (moedaSai 3).Aceita ambienteComite estadoPausado depoisDaPausa :=
  aceita_de_A roteiro_moeda.out.2.2.2.1

/-- While the token is not paused, its way out obeys the controls. -/
theorem controles_da_moeda : RespeitaControles (moedaSai 2) estadoMoeda depoisDaMoeda := by
  refine (controles_iff genese_ponte execucao_moeda moeda_sai).mpr ⟨?_, ?_⟩
  · intro tx id x tk htx hsaida htk
    obtain rfl := Option.some.inj htx
    have hler : (moedaSai 2).saida? = some (some idDaMoeda, 5) := by decide +kernel
    obtain ⟨hid, rfl⟩ := Prod.mk.inj (Option.some.inj (hsaida.symm.trans hler))
    obtain rfl := Option.some.inj hid
    have hlivre := roteiro_moeda.out.2.2.2.2.1
    rw [htk] at hlivre
    exact of_decide_eq_true hlivre
  · intro dep id tk hdep
    cases (show (moedaSai 2).deposito? estadoMoeda = none by decide +kernel).symm.trans hdep

/-- A paused token leaves a reached state through the bridge. -/
theorem moeda_pausada_nao_respeita : Genese ambienteComite estadoPonte ∧
    (∃ passado, Execucao ambienteComite estadoPonte passado estadoPausado) ∧
    (moedaSai 3).Aceita ambienteComite estadoPausado depoisDaPausa ∧
    (estadoPausado.tokens.get? idDaMoeda).map (·.paused) = some true ∧
    depoisDaPausa.saldoEm idDaMoeda enderecoA < estadoPausado.saldoEm idDaMoeda enderecoA ∧
    ¬ RespeitaControles (moedaSai 3) estadoPausado depoisDaPausa := by
  obtain ⟨hpausada, hdesce⟩ := roteiro_moeda.out.2.2.2.2.2
  refine ⟨genese_ponte, ⟨_, execucao_pausada⟩, moeda_pausada_sai, hpausada, hdesce, fun h => ?_⟩
  obtain ⟨tk, htk, hpausa, -⟩ := h.saida (by decide +kernel) (by decide +kernel) _ _ hdesce
  rw [htk] at hpausada
  cases hpausa.symm.trans (Option.some.inj hpausada)

end Eav7
