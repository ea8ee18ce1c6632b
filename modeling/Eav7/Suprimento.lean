import Eav7.Livro

/-!
# The supply of a token

In every run, failed actions included, what is held of a token and what the bridge
holds of it make up its supply, and only its owner and its holders move the supply.
-/

namespace Eav7

open Base

variable {amb : Ambiente} {s s₀ : State} {a : Acao} {b : Livro} {id : String} {tk : Token}

theorem livro_genese (hg : Genese amb s₀) : s₀.livro.EmDia := by
  have hvazio : s₀.livro = ({} : State).livro := hg.le
  rw [hvazio]
  constructor
  case id => intro id f h; cases h
  case ordem => intro id f h; cases h
  case limite => intro id f h; cases h
  case solto => intro id _; rfl

/-- Every action keeps the books, and so does every run. -/
theorem livro_roda (h₀ : s₀.livro.EmDia) (passado : List Acao) :
    (roda amb s₀ passado).livro.EmDia := by
  induction passado with
  | nil => exact h₀
  | cons a passado ih => exact (opera_livro ih a).emDia ih

theorem livro_execucao {passado : List (State × Acao)} (hg : Genese amb s₀)
    (h : Execucao amb s₀ passado s) : s.livro.EmDia :=
  h.invariante (livro_genese hg) fun hs ha => (ha.mudaLivro hs).emDia hs

/-- What a move of the books may do to the supply of a token. -/
structure Suprido (a : Acao) (id : String) (tk : Token) (f : Ficha) : Prop where
  owner : f.owner = tk.owner
  mintable : f.mintable = tk.mintable
  sobe : tk.totalSupply < f.suprimento → ∃ tx, a.tx? = some tx ∧ a.tipo? = some .tokenMint ∧
    TokenTx.campoTexto tx "token" = some id ∧ tx.de = tk.owner ∧ tk.mintable = true
  desce : f.suprimento < tk.totalSupply → ∃ tx, a.tx? = some tx ∧ a.tipo? = some .tokenBurn ∧
    TokenTx.campoTexto tx "token" = some id ∧ tk.totalSupply - f.suprimento ≤ tk.saldo tx.de

theorem Suprido.igual {f : Ficha} (howner : f.owner = tk.owner)
    (hmintable : f.mintable = tk.mintable) (h : f.suprimento = tk.totalSupply) :
    Suprido a id tk f :=
  ⟨howner, hmintable, fun hlt => absurd h hlt.ne', fun hlt => absurd h hlt.ne⟩

theorem MudaLivro.suprido (h : MudaLivro s a b) (htk : s.tokens.get? id = some tk) :
    ∃ f, b.fichas id = some f ∧ Suprido a id tk f := by
  have hmesma : ∃ f, s.livro.fichas id = some f ∧ Suprido a id tk f :=
    ⟨tk.ficha, fichas_of_get? htk, .igual rfl rfl rfl⟩
  cases h with
  | nada => exact hmesma
  | cria htx htipo hnova hid hsaldos hlimite =>
    rw [Livro.fichas_comFicha, if_neg]
    · exact hmesma
    · rintro rfl
      cases hnova.symm.trans htk
  | posta htk' hautoriza hcabe hlimite =>
    rename_i id' tk' l
    unfold Livro.posta
    rw [Livro.fichas_comTravado, Livro.fichas_comFicha]
    split_ifs with hid
    · subst hid
      obtain rfl := Option.some.inj (htk.symm.trans htk')
      refine ⟨_, rfl, ?_⟩
      cases hautoriza with
      | transfere => exact .igual rfl rfl rfl
      | emite htx htipo hnome howner hmintable =>
        refine ⟨rfl, rfl, fun _ => ⟨_, htx, htipo, hnome, howner.symm, hmintable⟩, fun h => ?_⟩
        exact absurd (Nat.le_add_right _ _) (Nat.not_le.mpr h)
      | queima htx htipo hnome =>
        refine ⟨rfl, rfl, fun h => ?_, fun _ => ⟨_, htx, htipo, hnome, ?_⟩⟩
        · exact absurd (Nat.sub_le _ _) (Nat.not_le.mpr h)
        · exact (Nat.sub_sub_self hcabe.2).le.trans hcabe.1
      | trava => exact .igual rfl rfl rfl
      | libera => exact .igual rfl rfl rfl
    · exact hmesma

/-- A token stays, under the same owner and rule, and a supply that nobody may mint never
grows. -/
theorem suprimento_fixo (hs : s.livro.EmDia) (htk : s.tokens.get? id = some tk)
    (depois : List Acao) : ∃ tk', (roda amb s depois).tokens.get? id = some tk' ∧
      tk'.owner = tk.owner ∧ tk'.mintable = tk.mintable ∧
      (tk.mintable = false → tk'.totalSupply ≤ tk.totalSupply) := by
  induction depois with
  | nil => exact ⟨tk, htk, rfl, rfl, fun _ => le_rfl⟩
  | cons a depois ih =>
    obtain ⟨tk', htk', howner, hmintable, hsupr⟩ := ih
    obtain ⟨f, hf, hsuprido⟩ := (opera_livro (livro_roda hs depois) a).suprido htk'
    obtain ⟨novo, hnovo, rfl⟩ := Option.map_eq_some_iff.mp hf
    refine ⟨novo, hnovo, hsuprido.owner.trans howner, hsuprido.mintable.trans hmintable,
      fun hfixo => Nat.le_of_not_lt fun hlt => ?_⟩
    obtain ⟨tx, -, -, -, -, hmint⟩ := hsuprido.sobe (lt_of_le_of_lt (hsupr hfixo) hlt)
    rw [hmintable, hfixo] at hmint
    cases hmint

/-- In every state of every run, failed actions included: the balances of a token and
what the bridge locks of it are its supply; whatever follows, the supply of a token that
is not mintable never grows; and an action that raises a supply is a mint by the owner,
one that lowers it a burn by a holder of what is burned. -/
theorem suprimento_conservado (hg : Genese amb s₀) (passado : List Acao) :
    (∀ id tk, (roda amb s₀ passado).tokens.get? id = some tk →
      tk.balances.total (fun _ v => v) + (roda amb s₀ passado).bridge.lockedTokens.getD id 0 =
        tk.totalSupply) ∧
    (∀ depois id tk, (roda amb s₀ passado).tokens.get? id = some tk →
      ∃ tk', (roda amb s₀ (depois ++ passado)).tokens.get? id = some tk' ∧
        tk'.owner = tk.owner ∧ tk'.mintable = tk.mintable ∧
        (tk.mintable = false → tk'.totalSupply ≤ tk.totalSupply)) ∧
    ∀ a id tk tk', (roda amb s₀ passado).tokens.get? id = some tk →
      (roda amb s₀ (a :: passado)).tokens.get? id = some tk' →
      (tk.totalSupply < tk'.totalSupply → ∃ tx, a.tx? = some tx ∧ a.tipo? = some .tokenMint ∧
        TokenTx.campoTexto tx "token" = some id ∧ tx.de = tk.owner ∧ tk.mintable = true) ∧
      (tk'.totalSupply < tk.totalSupply → ∃ tx, a.tx? = some tx ∧ a.tipo? = some .tokenBurn ∧
        TokenTx.campoTexto tx "token" = some id ∧
        tk.totalSupply - tk'.totalSupply ≤ tk.saldo tx.de) := by
  have hdia : (roda amb s₀ passado).livro.EmDia := livro_roda (livro_genese hg) passado
  refine ⟨fun id tk htk => ?_, fun depois id tk htk => ?_, fun a id tk tk' htk htk' => ?_⟩
  · exact hdia.ordem (fichas_of_get? htk)
  · rw [roda_append]
    exact suprimento_fixo hdia htk depois
  · have hmuda : MudaLivro (roda amb s₀ passado) a (roda amb s₀ (a :: passado)).livro :=
      opera_livro hdia a
    obtain ⟨f, hf, hsuprido⟩ := hmuda.suprido htk
    obtain rfl := Option.some.inj ((fichas_of_get? htk').symm.trans hf)
    exact ⟨hsuprido.sobe, hsuprido.desce⟩

/-! ## A token of nine units -/

def idDaMoeda : String := "815e4f922636d342a2af839f00cba44d3b67d4d1c321a519459e45c036bfa5bb"

def camposMoeda : Tx :=
  { txType := "TOKEN_CREATE", de := "", nonce := 1, timestamp := 1, fee := "0"
    data := some (.map [("decimals", .int 0), ("name", .str "x"), ("symbol", .str "XX"),
      ("totalSupply", .str "9")]) }

theorem moeda_criada :
    (((roda ambienteComite estadoPonte [.transacao (assinaA camposMoeda) 1 1]).tokens.get?
      idDaMoeda).map (·.totalSupply)) = some 9 := by
  unfold assinaA
  rw [ambienteComite_eq, criptoComite_eq]
  simp only [roda, Acao.opera]
  unfold applyTransaction aplicarNativa apurarTaxa EavmTx.apurarGb
  rw [consumoGb_eq]
  decide +kernel

theorem suprimento_da_moeda : ∃ tk,
    (roda ambienteComite estadoPonte [.transacao (assinaA camposMoeda) 1 1]).tokens.get?
      idDaMoeda = some tk ∧
    tk.balances.total (fun _ v => v) + (roda ambienteComite estadoPonte
      [.transacao (assinaA camposMoeda) 1 1]).bridge.lockedTokens.getD idDaMoeda 0 = 9 := by
  obtain ⟨tk, htk, hnove⟩ := Option.map_eq_some_iff.mp moeda_criada
  have hsoma := (suprimento_conservado genese_ponte
    [.transacao (assinaA camposMoeda) 1 1]).1 idDaMoeda tk htk
  exact ⟨tk, htk, hsoma.trans hnove⟩

end Eav7
