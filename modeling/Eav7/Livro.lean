import Eav7.Base.Razao
import Eav7.Ponte

/-!
# The books of the tokens

Each token has its book: the balances, what the bridge holds locked and the supply.
Whatever an action does to the books, also when it fails half way, is a creation or one
posting that the token's own rules allow.
-/

namespace Eav7

open Base

/-- What a posting reads and writes of a token, and what of it never changes. -/
structure Ficha where
  id : String
  owner : String
  mintable : Bool
  saldos : OrdMap String Amount
  suprimento : Amount

def Token.ficha (t : Token) : Ficha := ⟨t.id, t.owner, t.mintable, t.balances, t.totalSupply⟩

@[ext] structure Livro where
  fichas : String → Option Ficha
  travados : String → Amount

def State.livro (s : State) : Livro where
  fichas id := (s.tokens.get? id).map Token.ficha
  travados id := s.bridge.lockedTokens.getD id 0

namespace Livro

variable (b : Livro)

/-- The book of one token. -/
def razao (id : String) (f : Ficha) : Razao String := ⟨f.saldos, b.travados id, f.suprimento⟩

def comFicha (id : String) (f : Ficha) : Livro :=
  { b with fichas := Function.update b.fichas id (some f) }

def comTravado (id : String) (x : Amount) : Livro :=
  { b with travados := Function.update b.travados id x }

def posta (id : String) (f : Ficha) (l : Lancamento String) : Livro :=
  let r := (b.razao id f).aplica l
  (b.comFicha id { f with saldos := r.saldos, suprimento := r.suprimento }).comTravado id r.reserva

/-- Every book is under its own id and in order, and the bridge holds nothing of a token
that does not exist. -/
structure EmDia : Prop where
  id : ∀ {id f}, b.fichas id = some f → f.id = id
  ordem : ∀ {id f}, b.fichas id = some f → (b.razao id f).EmOrdem
  limite : ∀ {id f}, b.fichas id = some f → f.suprimento < u128Limit
  solto : ∀ {id}, b.fichas id = none → b.travados id = 0

variable {b}

@[simp] theorem fichas_comTravado (id : String) (x : Amount) :
    (b.comTravado id x).fichas = b.fichas := rfl

@[simp] theorem travados_comFicha (id : String) (f : Ficha) :
    (b.comFicha id f).travados = b.travados := rfl

theorem fichas_comFicha (id k : String) (f : Ficha) :
    (b.comFicha id f).fichas k = if k = id then some f else b.fichas k :=
  Function.update_apply _ _ _ _

theorem travados_comTravado (id k : String) (x : Amount) :
    (b.comTravado id x).travados k = if k = id then x else b.travados k :=
  Function.update_apply _ _ _ _

theorem comFicha_self {id : String} {f : Ficha} (h : b.fichas id = some f) : b.comFicha id f = b :=
  Livro.ext (by unfold comFicha; rw [← h, Function.update_eq_self]) rfl

theorem comTravado_self (id : String) : b.comTravado id (b.travados id) = b :=
  Livro.ext rfl (Function.update_eq_self _ _)

/-- A posting that leaves the reserve alone writes the balances and the supply only. -/
theorem posta_eq_comFicha {id : String} {f novo : Ficha} {l : Lancamento String}
    (hreserva : ((b.razao id f).aplica l).reserva = b.travados id)
    (hnovo : novo = { f with
      saldos := ((b.razao id f).aplica l).saldos
      suprimento := ((b.razao id f).aplica l).suprimento }) :
    b.posta id f l = b.comFicha id novo := by
  subst hnovo
  unfold posta
  dsimp only
  rw [hreserva]
  exact comTravado_self (b := b.comFicha id _) id

theorem EmDia.posta {id : String} {f : Ficha} {l : Lancamento String} (h : b.EmDia)
    (hf : b.fichas id = some f) (hcabe : (b.razao id f).Cabe l)
    (hlimite : ((b.razao id f).aplica l).suprimento < u128Limit) : (b.posta id f l).EmDia := by
  have hordem : ((b.razao id f).aplica l).EmOrdem := (h.ordem hf).aplica hcabe
  have hficha : ∀ k, (b.posta id f l).fichas k = if k = id
      then some { f with
        saldos := ((b.razao id f).aplica l).saldos
        suprimento := ((b.razao id f).aplica l).suprimento }
      else b.fichas k := fun k => fichas_comFicha id k _
  have htravado : ∀ k, (b.posta id f l).travados k =
      if k = id then ((b.razao id f).aplica l).reserva else b.travados k :=
    fun k => travados_comTravado id k _
  constructor
  case id =>
    intro k g hk
    rw [hficha] at hk
    split_ifs at hk with hid
    · cases hk
      exact (h.id hf).trans hid.symm
    · exact h.id hk
  case ordem =>
    intro k g hk
    unfold razao
    rw [htravado]
    rw [hficha] at hk
    split_ifs at hk ⊢ with hid
    · cases hk
      exact hordem
    · exact h.ordem hk
  case limite =>
    intro k g hk
    rw [hficha] at hk
    split_ifs at hk with hid
    · cases hk
      exact hlimite
    · exact h.limite hk
  case solto =>
    intro k hk
    rw [hficha] at hk
    rw [htravado]
    split_ifs at hk ⊢ with hid
    exact h.solto hk

/-- A new token whose supply is all held keeps the books. -/
theorem EmDia.cria {f : Ficha} (h : b.EmDia) (hnova : b.fichas f.id = none)
    (hsaldos : f.saldos.total (fun _ v => v) = f.suprimento) (hlimite : f.suprimento < u128Limit) :
    (b.comFicha f.id f).EmDia := by
  have hficha : ∀ k, (b.comFicha f.id f).fichas k = if k = f.id then some f else b.fichas k :=
    fun k => fichas_comFicha f.id k f
  constructor
  case id =>
    intro k g hk
    rw [hficha] at hk
    split_ifs at hk with hid
    · cases hk
      exact hid.symm
    · exact h.id hk
  case ordem =>
    intro k g hk
    rw [hficha] at hk
    split_ifs at hk with hid
    · cases hk
      subst hid
      change f.saldos.total (fun _ v => v) + b.travados f.id = f.suprimento
      rw [h.solto hnova]
      exact hsaldos
    · exact h.ordem hk
  case limite =>
    intro k g hk
    rw [hficha] at hk
    split_ifs at hk with hid
    · cases hk
      exact hlimite
    · exact h.limite hk
  case solto =>
    intro k hk
    rw [hficha] at hk
    split_ifs at hk with hid
    exact h.solto hk

end Livro

/-! ## What an action does to the books -/

/-- What the rules of a token ask of a posting. -/
inductive Autoriza (s : State) (a : Acao) (id : String) (tk : Token) : Lancamento String → Prop
  | transfere {de para : String} {x : Amount} (hpausa : tk.paused = false)
      (hde : tk.bloqueado de = false) (hpara : tk.bloqueado para = false) (hx : 0 < x)
      (hdisponivel : x ≤ tk.disponivel de a.height) : Autoriza s a id tk (.transfere de para x)
  | emite {tx : Tx} {para : String} {x : Amount} (htx : a.tx? = some tx)
      (htipo : a.tipo? = some .tokenMint) (hnome : TokenTx.campoTexto tx "token" = some id)
      (howner : tk.owner = tx.de) (hmintable : tk.mintable = true) :
      Autoriza s a id tk (.emite para x)
  | queima {tx : Tx} {x : Amount} (htx : a.tx? = some tx) (htipo : a.tipo? = some .tokenBurn)
      (hnome : TokenTx.campoTexto tx "token" = some id) : Autoriza s a id tk (.queima tx.de x)
  | trava {tx : Tx} {x : Amount} (htx : a.tx? = some tx) (hsaida : a.saida? = some (some id, x)) :
      Autoriza s a id tk (.trava tx.de x)
  | libera {dep : BridgeTx.Deposito} (hdep : a.deposito? s = some dep)
      (htoken : dep.token = some id) : Autoriza s a id tk (.libera dep.para dep.amount)

/-- Everything that an action can do to the books. -/
inductive MudaLivro (s : State) (a : Acao) : Livro → Prop
  | nada : MudaLivro s a s.livro
  | cria {tx : Tx} {id : String} {f : Ficha} (htx : a.tx? = some tx)
      (htipo : a.tipo? = some .tokenCreate) (hnova : s.tokens.get? id = none) (hid : f.id = id)
      (hsaldos : f.saldos = (∅ : OrdMap String Amount).insert tx.de f.suprimento)
      (hlimite : f.suprimento < u128Limit) : MudaLivro s a (s.livro.comFicha id f)
  | posta {id : String} {tk : Token} {l : Lancamento String} (htk : s.tokens.get? id = some tk)
      (hautoriza : Autoriza s a id tk l) (hcabe : (s.livro.razao id tk.ficha).Cabe l)
      (hlimite : ((s.livro.razao id tk.ficha).aplica l).suprimento < u128Limit) :
      MudaLivro s a (s.livro.posta id tk.ficha l)

variable {amb : Ambiente} {s u : State} {a : Acao}

theorem fichas_of_get? {id : String} {tk : Token} (h : s.tokens.get? id = some tk) :
    s.livro.fichas id = some tk.ficha := congrArg (Option.map Token.ficha) h

/-- Every move keeps the books. -/
theorem MudaLivro.emDia {b : Livro} (h : MudaLivro s a b) (hs : s.livro.EmDia) : b.EmDia := by
  cases h with
  | nada => exact hs
  | cria htx htipo hnova hid hsaldos hlimite =>
    rename_i tx id f
    subst hid
    refine hs.cria (congrArg (Option.map Token.ficha) hnova) ?_ hlimite
    rw [hsaldos]
    have h := OrdMap.total_insert (fun _ v => v) (∅ : OrdMap String Amount) tx.de f.suprimento
    simpa [OrdMap.weight] using h
  | posta htk hautoriza hcabe hlimite => exact hs.posta (fichas_of_get? htk) hcabe hlimite

/-! ## The footprint of the books -/

/-- The fields of the state that hold the books. -/
@[reducible] def Campo.doLivro : Campo → Bool
  | tokens | bridge => true
  | _ => false

instance (c : Campo) [h : Alheio c.doLivro] : Cego State.livro c where
  cego s := by
    have hc := h.fora
    cases c <;> first | rfl | cases hc

/-- The runs whose every end, in success or failure, is a move of the books. -/
abbrev RunsLivro (s : State) (a : Acao) {α : Type} (m : Op α) (u : State) : Prop :=
  Runs m u (fun _ t => Le State.livro (MudaLivro s a) t) fun _ t => Le State.livro (MudaLivro s a) t

theorem livro_nada (hu : u.livro = s.livro) : Le State.livro (MudaLivro s a) u :=
  (congrArg (MudaLivro s a) hu).mpr .nada

/-- A computation that leaves the books alone, before the rest of the run. -/
theorem RunsLivro.antes {α β : Type} {m : Op α} {f : α → Op β}
    (hm : Mantem (Le State.livro (· = s.livro)) m) (hu : u.livro = s.livro)
    (hf : ∀ x v, v.livro = s.livro → RunsLivro s a (f x) v) : RunsLivro s a (m >>= f) u :=
  Runs.bind ((hm u hu).mono (fun x v hv => hf x v hv) fun _ _ hv => livro_nada hv)

/-- A check, before the rest of the run. -/
theorem RunsLivro.confere {α β : Type} {x : R α} {f : α → Op β} (hu : u.livro = s.livro)
    (hf : ∀ b, x = .ok b → RunsLivro s a (f b) u) : RunsLivro s a (liftM x >>= f) u :=
  Runs.conferir (livro_nada hu) hf

/-- A computation that leaves the books alone, after the rest of the run. -/
theorem RunsLivro.segue {α β : Type} {m : Op α} {f : α → Op β} (hm : RunsLivro s a m u)
    (hf : ∀ x, Mantem (Le State.livro (MudaLivro s a)) (f x)) : RunsLivro s a (m >>= f) u :=
  Runs.bind (hm.mono (fun x v hv => hf x v hv) fun _ _ hv => hv)

/-- Rewriting a stored token writes its ficha. -/
theorem livro_insert {id : String} (tk : Token) :
    State.livro { s with tokens := s.tokens.insert id tk } = s.livro.comFicha id tk.ficha := by
  refine Livro.ext (funext fun k => ?_) rfl
  rw [Livro.fichas_comFicha]
  change ((s.tokens.insert id tk).get? k).map Token.ficha = _
  rw [OrdMap.get?_insert]
  split_ifs <;> rfl

/-- The tokens with the same books have the same fichas. -/
theorem mesma_ficha {id : String} {tk tk' : Token} (hu : u.livro = s.livro)
    (h : s.tokens.get? id = some tk) (h' : u.tokens.get? id = some tk') : tk'.ficha = tk.ficha := by
  have hfichas := congrArg (fun b : Livro => b.fichas id) hu
  exact Option.some.inj ((fichas_of_get? h').symm.trans (hfichas.trans (fichas_of_get? h)))

theorem ficha_comSaldos {t tk : Token} (h : t.ficha = tk.ficha) (saldos : OrdMap String Amount)
    (suprimento : Amount) : Token.ficha { t with balances := saldos, totalSupply := suprimento } =
      { tk.ficha with saldos := saldos, suprimento := suprimento } := by
  rw [← h]
  rfl

/-! ## The handlers of the tokens -/

namespace TokenTx

theorem comToken_livro {P : Livro → Prop} {f : Token → Token} (hf : ∀ t, (f t).ficha = t.ficha)
    (id : String) : Mantem (Le State.livro P) (comToken id f) := by
  refine .get_bind fun s hs => .conferir fun tk htk => .set_intro ?_
  change P _
  rw [livro_insert, hf, Livro.comFicha_self (fichas_of_get? (exigir_eq_ok.mp htk))]
  exact hs

theorem taxaEToken_livro {P : Livro → Prop} {f : Token → Token} (hf : ∀ t, (f t).ficha = t.ficha)
    (tx : Tx) (ctx : Ctx) (id : String) : Mantem (Le State.livro P) (do
      debitar tx.de ctx.fee
      comToken id f) :=
  .bind (debitar_mantem _ _) fun _ => comToken_livro hf id

/-- A write of the balances and the supply of a token, as its posting leaves them. -/
theorem comToken_runs {id : String} {tk : Token} {f : Token → Token} {l : Lancamento String}
    (htk : s.tokens.get? id = some tk) (hu : u.livro = s.livro)
    (hf : ∀ t, t.ficha = tk.ficha → (f t).ficha = { tk.ficha with
      saldos := ((s.livro.razao id tk.ficha).aplica l).saldos
      suprimento := ((s.livro.razao id tk.ficha).aplica l).suprimento })
    (hreserva : ((s.livro.razao id tk.ficha).aplica l).reserva = s.livro.travados id)
    (hmuda : MudaLivro s a (s.livro.posta id tk.ficha l)) :
    RunsLivro s a (comToken id f) u := by
  refine Runs.get_bind (Runs.conferir (livro_nada hu) fun tk' htk' => Runs.set_intro ?_)
  change MudaLivro s a _
  rw [livro_insert, hu, hf tk' (mesma_ficha hu htk (exigir_eq_ok.mp htk')),
    ← Livro.posta_eq_comFicha hreserva rfl]
  exact hmuda

/-- A movement inside the books: the destination's overflow check cannot fail after the
origin was written, since the supply bounds what is held. -/
theorem mover_runs {id de para : String} {x : Amount} {tk : Token} (hs : s.livro.EmDia)
    (htk : s.tokens.get? id = some tk) (hu : u.livro = s.livro)
    (hautoriza : Autoriza s a id tk (.transfere de para x)) :
    RunsLivro s a (mover id de para x) u := by
  refine Runs.get_bind (Runs.conferir (livro_nada hu) fun tk' htk' => ?_)
  refine Runs.conferir (livro_nada hu) fun _ hsaldo => Runs.set_bind ?_
  have hficha := mesma_ficha hu htk (exigir_eq_ok.mp htk')
  have hsaldos : tk'.balances = tk.balances := congrArg Ficha.saldos hficha
  have hcabe : x ≤ (s.livro.razao id tk.ficha).saldo de := by
    have hle := recusar_eq_ok.mp hsaldo
    unfold Token.saldo at hle
    rw [hsaldos] at hle
    exact Nat.le_of_not_lt hle
  have hlimite : ((s.livro.razao id tk.ficha).tira de x).saldo para + x < u128Limit :=
    ((Razao.saldo_tira_le hcabe).trans (hs.ordem (fichas_of_get? htk)).total_le).trans_lt
      (hs.limite (fichas_of_get? htk))
  unfold Token.saldo
  rw [hsaldos]
  refine Runs.lift_bind_ok ((recusar_eq_ok (u := ())).mpr (Nat.not_le.mpr hlimite)) ?_
  refine Runs.set_intro ?_
  change MudaLivro s a _
  have hnovo : Token.ficha { tk' with
      balances := ((s.livro.razao id tk.ficha).aplica (.transfere de para x)).saldos } =
        { tk.ficha with
          saldos := ((s.livro.razao id tk.ficha).aplica (.transfere de para x)).saldos } := by
    rw [← hficha]
    rfl
  rw [livro_insert, hu]
  refine (congrArg (MudaLivro s a) (Livro.posta_eq_comFicha rfl hnovo)).mp ?_
  exact .posta htk hautoriza hcabe (hs.limite (fichas_of_get? htk))

theorem guarda_eq_ok {tk : Token} {enderecos : List String} {x : Unit}
    (h : tk.guarda enderecos = .ok x) :
    tk.paused = false ∧ ∀ addr ∈ enderecos, tk.bloqueado addr = false := by
  obtain ⟨_, hpausa, h⟩ := except_bind_eq_ok.mp h
  refine ⟨Bool.eq_false_iff.mpr (recusar_eq_ok.mp hpausa), fun addr haddr => ?_⟩
  cases hfind : enderecos.find? tk.bloqueado with
  | none => exact Bool.eq_false_iff.mpr (List.find?_eq_none.mp hfind addr haddr)
  | some b =>
    rw [hfind] at h
    cases h

/-- A movement that the guard and the free balance let through. -/
theorem autoriza_de_guarda {id de para : String} {x : Amount} {tk : Token}
    {enderecos : List String} {v : Unit} (hguarda : tk.guarda enderecos = .ok v)
    (hde : de ∈ enderecos) (hpara : para ∈ enderecos) (hx : x ≠ 0)
    (hdisponivel : ¬ tk.disponivel de a.height < x) : Autoriza s a id tk (.transfere de para x) :=
  have ⟨hpausa, hlivres⟩ := guarda_eq_ok hguarda
  .transfere hpausa (hlivres de hde) (hlivres para hpara) (Nat.pos_of_ne_zero hx)
    (Nat.le_of_not_lt hdisponivel)

theorem buscar_eq_ok {tx : Tx} {tk : Token} (hs : s.livro.EmDia) (h : buscar s tx = .ok tk) :
    s.tokens.get? tk.id = some tk ∧ campoTexto tx "token" = some tk.id := by
  obtain ⟨id, hid, h⟩ := except_bind_eq_ok.mp h
  have htk := exigir_eq_ok.mp h
  have hfixo : tk.id = id := hs.id (fichas_of_get? htk)
  rw [hfixo]
  exact ⟨htk, exigir_eq_ok.mp hid⟩

theorem efeitoMetaTransfer_runs {id de para : String} {x : Amount} {height : ℕ}
    (hs : s.livro.EmDia) (hheight : a.height = height) (htokens : u.tokens = s.tokens)
    (hu : u.livro = s.livro) : RunsLivro s a (efeitoMetaTransfer id de para x height) u := by
  refine Runs.get_bind (RunsLivro.confere hu fun tk htk => .confere hu fun _ hguarda => ?_)
  refine RunsLivro.confere hu fun _ hx => .confere hu fun _ hdisponivel => ?_
  rw [htokens] at htk
  rw [← hheight] at hdisponivel
  exact mover_runs hs (exigir_eq_ok.mp htk) hu (autoriza_de_guarda hguarda List.mem_cons_self
    (List.mem_cons_of_mem _ List.mem_cons_self) (recusar_eq_ok.mp hx)
    (recusar_eq_ok.mp hdisponivel))

/-- A new supply is a decimal that was read. -/
theorem totalSupply_lt {tx : Tx} {params : ParamsToken} (h : validarParamsToken tx = .ok params) :
    params.totalSupply < u128Limit := by
  obtain ⟨_, -, h⟩ := except_bind_eq_ok.mp h
  obtain ⟨_, -, h⟩ := except_bind_eq_ok.mp h
  obtain ⟨_, -, h⟩ := except_bind_eq_ok.mp h
  obtain ⟨decimals, -, h⟩ := except_bind_eq_ok.mp h
  obtain ⟨n, hn, h⟩ := except_bind_eq_ok.mp h
  obtain rfl := Except.ok.inj h
  change n < u128Limit
  obtain ⟨texto, -, hn⟩ := Option.bind_eq_some_iff.mp (exigir_eq_ok.mp hn)
  cases hamount : parseAmount texto with
  | error e =>
    rw [hamount] at hn
    cases hn
  | ok m =>
    rw [hamount] at hn
    dsimp only at hn
    split_ifs at hn
    obtain rfl := Option.some.inj hn
    obtain ⟨_, -, hamount⟩ := except_bind_eq_ok.mp hamount
    obtain ⟨_, -, hamount⟩ := except_bind_eq_ok.mp hamount
    exact parseU128_lt (exigir_eq_ok.mp hamount)

section

variable (cr : Cripto) (tx : Tx) (ctx : Ctx)

theorem transferir_runs (hs : s.livro.EmDia) (hheight : a.height = ctx.height) :
    RunsLivro s a (transferir cr tx ctx) s := by
  refine Runs.get_bind (RunsLivro.confere rfl fun para _ => .confere rfl fun x _ => ?_)
  refine RunsLivro.confere rfl fun tk htk => .confere rfl fun _ hguarda => ?_
  refine RunsLivro.confere rfl fun _ hx => .confere rfl fun _ hdisponivel => ?_
  refine RunsLivro.confere rfl fun _ _ => .antes (debitar_mantem _ _) rfl fun _ v hv => ?_
  rw [← hheight] at hdisponivel
  exact mover_runs hs (buscar_eq_ok hs htk).1 hv (autoriza_de_guarda hguarda List.mem_cons_self
    (List.mem_cons_of_mem _ List.mem_cons_self) (recusar_eq_ok.mp hx)
    (recusar_eq_ok.mp hdisponivel))

theorem transferirDe_runs (hs : s.livro.EmDia) (hheight : a.height = ctx.height) :
    RunsLivro s a (transferirDe cr tx ctx) s := by
  refine Runs.get_bind (RunsLivro.confere rfl fun para _ => .confere rfl fun x _ => ?_)
  refine RunsLivro.confere rfl fun _ _ => .confere rfl fun tk htk => ?_
  refine RunsLivro.confere rfl fun _ hguarda => .confere rfl fun _ hx => ?_
  refine RunsLivro.confere rfl fun _ _ => .confere rfl fun _ hdisponivel => ?_
  refine RunsLivro.confere rfl fun _ _ => .antes (debitar_mantem _ _) rfl fun _ v hv => ?_
  refine RunsLivro.antes (comToken_livro (by exact fun _ => rfl) _) hv fun _ w hw => ?_
  rw [← hheight] at hdisponivel
  exact mover_runs hs (buscar_eq_ok hs htk).1 hw (autoriza_de_guarda hguarda List.mem_cons_self
    (List.mem_cons_of_mem _ List.mem_cons_self) (recusar_eq_ok.mp hx)
    (recusar_eq_ok.mp hdisponivel))

theorem emitir_runs (hs : s.livro.EmDia) (htx : a.tx? = some tx)
    (htipo : a.tipo? = some .tokenMint) : RunsLivro s a (emitir cr tx ctx) s := by
  refine Runs.get_bind (RunsLivro.confere rfl fun x _ => .confere rfl fun tk htk => ?_)
  refine RunsLivro.confere rfl fun _ howner => .confere rfl fun _ hmintable => ?_
  refine RunsLivro.confere rfl fun para _ => .confere rfl fun _ _ => ?_
  refine RunsLivro.confere rfl fun alvo halvo => .confere rfl fun _ hlimite => ?_
  refine RunsLivro.confere rfl fun _ _ => .confere rfl fun _ _ => ?_
  refine RunsLivro.antes (debitar_mantem _ _) rfl fun _ v hv => ?_
  obtain ⟨htk', hnome⟩ := buscar_eq_ok hs htk
  obtain rfl : tk = alvo := Option.some.inj (htk'.symm.trans (exigir_eq_ok.mp halvo))
  refine comToken_runs (l := .emite para x) htk' hv (fun t ht => ?_) rfl ?_
  · have hsaldos : t.balances = tk.balances := congrArg Ficha.saldos ht
    refine (ficha_comSaldos ht _ _).trans ?_
    rw [hsaldos]
    rfl
  · exact .posta htk' (.emite htx htipo hnome (not_not.mp (recusar_eq_ok.mp howner))
      (Bool.not_eq_false _ ▸ recusar_eq_ok.mp hmintable)) trivial
      (Nat.lt_of_not_le (recusar_eq_ok.mp hlimite))

theorem queimar_runs (hs : s.livro.EmDia) (htx : a.tx? = some tx)
    (htipo : a.tipo? = some .tokenBurn) : RunsLivro s a (queimar tx ctx) s := by
  refine Runs.get_bind (RunsLivro.confere rfl fun x _ => .confere rfl fun tk htk => ?_)
  refine RunsLivro.confere rfl fun _ _ => .confere rfl fun _ hsaldo => ?_
  refine RunsLivro.confere rfl fun _ hsupr => .confere rfl fun _ _ => ?_
  refine RunsLivro.antes (debitar_mantem _ _) rfl fun _ v hv => ?_
  obtain ⟨htk', hnome⟩ := buscar_eq_ok hs htk
  have hcabe : (s.livro.razao tk.id tk.ficha).Cabe (.queima tx.de x) :=
    ⟨Nat.le_of_not_lt (recusar_eq_ok.mp hsaldo), Nat.le_of_not_lt (recusar_eq_ok.mp hsupr)⟩
  refine comToken_runs (l := .queima tx.de x) htk' hv (fun t ht => ?_) rfl ?_
  · have hsaldos : t.balances = tk.balances := congrArg Ficha.saldos ht
    refine (ficha_comSaldos ht _ _).trans ?_
    rw [hsaldos]
    rfl
  · exact .posta htk' (.queima htx htipo hnome) hcabe
      ((Nat.sub_le _ _).trans_lt (hs.limite (fichas_of_get? htk')))

theorem criar_runs (htx : a.tx? = some tx) (htipo : a.tipo? = some .tokenCreate) :
    RunsLivro s a (criar cr tx ctx) s := by
  refine Runs.get_bind (RunsLivro.confere rfl fun params hparams => .confere rfl fun _ _ => ?_)
  refine RunsLivro.confere rfl fun txId _ => .confere rfl fun _ hnovo => ?_
  refine RunsLivro.confere rfl fun _ _ => .confere rfl fun _ _ => ?_
  refine RunsLivro.antes (debitar_mantem _ _) rfl fun _ v hv => ?_
  refine Runs.modify_intro ?_
  change MudaLivro s a _
  rw [livro_insert, hv]
  refine .cria htx htipo ?_ rfl rfl (totalSupply_lt hparams)
  exact OrdMap.contains_eq_false.mp (Bool.eq_false_iff.mpr (recusar_eq_ok.mp hnovo))

/-- The administration of a token leaves its books alone. -/
theorem administra_livro {P : Livro → Prop} {tipo : Tipo}
    (h : tipo ∈ [Tipo.tokenApprove, .tokenPause, .tokenUnpause, .tokenBlacklist, .tokenFreeze,
      .tokenUnfreeze]) :
    Mantem (Le State.livro P) (manipulador amb tx ctx tipo) := by
  simp only [List.mem_cons, List.not_mem_nil, or_false] at h
  rcases h with rfl | rfl | rfl | rfl | rfl | rfl
  all_goals
    refine .get_bind fun s hs => ?_
    repeat with_reducible refine Mantem.lift_bind fun _ => ?_
    exact taxaEToken_livro (by exact fun _ => rfl) _ _ _

end

end TokenTx

/-! ## Sponsored and multisignature operations -/

namespace GovTx

variable {tx : Tx} {ctx : Ctx}

theorem metaTx_runs (hs : s.livro.EmDia) (hheight : a.height = ctx.height) :
    RunsLivro s a (metaTx amb tx ctx) s := by
  refine Runs.get_bind (RunsLivro.confere rfl fun x _ => Runs.ite (fun _ => ?_) fun _ => ?_)
  · refine RunsLivro.confere rfl fun id _ => .confere rfl fun valor _ => ?_
    exact RunsLivro.segue (TokenTx.efeitoMetaTransfer_runs hs hheight rfl rfl) fun _ =>
      comNonce_mantem _ _
  · exact RunsLivro.confere rfl fun _ _ => metaTransfer_mantem _ _ _ s (livro_nada rfl)

/-- An operation moves the books when it is the transfer of a token. -/
theorem aplicarOp_runs {account : String} {op : OpResolvida} {height : ℕ} {opId : String}
    (cr : Cripto) (hs : s.livro.EmDia) (hheight : a.height = height)
    (htokens : u.tokens = s.tokens) (hu : u.livro = s.livro) :
    RunsLivro s a (aplicarOp cr account op height opId) u := by
  by_cases hop : ∃ token para amount, op = .tokenTransfer token para amount
  · obtain ⟨token, para, amount, rfl⟩ := hop
    exact TokenTx.efeitoMetaTransfer_runs hs hheight htokens hu
  · refine aplicarOp_partes cr account op height opId ?_ ?_ ?_ u (livro_nada hu)
    · intro perm _
      exact aplicarPermissionChange_mantem account perm
    · intro token para amount h
      exact absurd ⟨token, para, amount, h⟩ hop
    · intro colecao tokenId para _
      exact efeitoMultisigTransfer_mantem _ _ _ _ _

theorem cobrarTaxa_livro {α : Type} {f : Unit → Op α}
    (hf : ∀ v, v.tokens = s.tokens → v.livro = s.livro → RunsLivro s a (f ⟨⟩) v) :
    RunsLivro s a (cobrarTaxa tx ctx >>= f) s := by
  have hpaga : Mantem (Le (fun v : State => (v.tokens, v.livro)) (· = (s.tokens, s.livro)))
      (cobrarTaxa tx ctx) := by
    have : Cego (fun v : State => (v.tokens, v.livro)) .accounts := ⟨fun _ => rfl⟩
    exact cobrarTaxa_mantem tx ctx
  refine Runs.bind ((hpaga s rfl).mono (fun _ v hv => ?_) fun _ v hv => livro_nada (Prod.ext_iff.mp hv).2)
  exact hf v (Prod.ext_iff.mp hv).1 (Prod.ext_iff.mp hv).2

theorem multisigPropose_runs (cr : Cripto) (hs : s.livro.EmDia) (hheight : a.height = ctx.height) :
    RunsLivro s a (multisigPropose cr tx ctx) s := by
  refine Runs.get_bind (RunsLivro.confere rfl fun p _ => cobrarTaxa_livro fun v htokens hv => ?_)
  split
  · exact aplicarOp_runs cr hs hheight htokens hv
  · exact Runs.modify_intro (livro_nada hv)

theorem multisigApprove_runs (cr : Cripto) (hs : s.livro.EmDia) (hheight : a.height = ctx.height) :
    RunsLivro s a (multisigApprove cr tx ctx) s := by
  refine Runs.get_bind (RunsLivro.confere rfl fun p _ => cobrarTaxa_livro fun v htokens hv => ?_)
  split
  · exact Runs.modify_bind (aplicarOp_runs cr hs hheight htokens hv)
  · exact Runs.modify_intro (livro_nada hv)

end GovTx

/-! ## The bridge -/

/-- The fichas of a state with the same books. -/
theorem acha_ficha {id : String} {tk : Token} (hu : u.livro = s.livro)
    (h : s.tokens.get? id = some tk) :
    ∃ tk', u.tokens.get? id = some tk' ∧ tk'.ficha = tk.ficha := by
  have hfichas := congrArg (fun b : Livro => b.fichas id) hu
  obtain ⟨tk', htk', hficha⟩ := Option.map_eq_some_iff.mp (hfichas.trans (fichas_of_get? h))
  exact ⟨tk', htk', hficha⟩

theorem travados_of_livro {id : String} (hu : u.livro = s.livro) :
    u.bridge.lockedTokens.getD id 0 = s.livro.travados id :=
  congrArg (fun b : Livro => b.travados id) hu

theorem livro_lockedTokens {id : String} (x : Amount) :
    State.livro { s with bridge := { s.bridge with
      lockedTokens := s.bridge.lockedTokens.insert id x } } = s.livro.comTravado id x := by
  refine Livro.ext rfl (funext fun k => ?_)
  rw [Livro.travados_comTravado]
  exact OrdMap.getD_insert _ _ _ _ _

namespace BridgeTx

theorem travarToken_runs {id de : String} {x : Amount} {tk : Token} (hs : s.livro.EmDia)
    (htk : s.tokens.get? id = some tk) (hu : u.livro = s.livro)
    (hautoriza : Autoriza s a id tk (.trava de x)) : RunsLivro s a (travarToken id de x) u := by
  refine Runs.get_bind (RunsLivro.confere hu fun tk' htk' => .confere hu fun novo hnovo => ?_)
  have hficha := mesma_ficha hu htk (exigir_eq_ok.mp htk')
  have hsaldos : tk'.balances = tk.balances := congrArg Ficha.saldos hficha
  obtain ⟨rfl, hle⟩ := sub_eq_ok.mp hnovo
  have hcabe : x ≤ (s.livro.razao id tk.ficha).saldo de := by
    unfold Token.saldo at hle
    rw [hsaldos] at hle
    exact hle
  have hlimite : u.bridge.lockedTokens.getD id 0 + x < u128Limit := by
    have hsobra := (hs.ordem (fichas_of_get? htk)).saldo_add_reserva_le (k := de)
    refine lt_of_le_of_lt ?_ (hs.limite (fichas_of_get? htk))
    rw [travados_of_livro hu, Nat.add_comm]
    exact (Nat.add_le_add_right hcabe _).trans hsobra
  refine Runs.set_bind (Runs.get_bind (Runs.lift_bind_ok (soma_eq_ok.mpr ⟨rfl, hlimite⟩) ?_))
  refine Runs.modify_intro ?_
  change MudaLivro s a _
  have hnovo : Token.ficha { tk' with balances := tk'.balances.insert de (tk'.saldo de - x) } =
      { tk.ficha with saldos := ((s.livro.razao id tk.ficha).aplica (.trava de x)).saldos } := by
    rw [← hficha]
    rfl
  rw [livro_lockedTokens, livro_insert, hu, hnovo, travados_of_livro hu]
  exact .posta htk hautoriza hcabe (hs.limite (fichas_of_get? htk))

theorem liberarToken_runs {id para : String} {x : Amount} {tk : Token} (hs : s.livro.EmDia)
    (htk : s.tokens.get? id = some tk) (hu : u.livro = s.livro)
    (hautoriza : Autoriza s a id tk (.libera para x)) : RunsLivro s a (liberarToken id para x) u := by
  refine Runs.get_bind (RunsLivro.confere hu fun travado htravado => Runs.modify_bind ?_)
  obtain ⟨rfl, hle⟩ := sub_eq_ok.mp htravado
  rw [travados_of_livro hu] at hle ⊢
  obtain ⟨tk', htk', hficha⟩ := acha_ficha hu htk
  have hsaldos : tk'.balances = tk.balances := congrArg Ficha.saldos hficha
  have hlimite : tk'.saldo para + x < u128Limit := by
    have hsobra := (hs.ordem (fichas_of_get? htk)).saldo_add_reserva_le (k := para)
    refine lt_of_le_of_lt ?_ (hs.limite (fichas_of_get? htk))
    unfold Token.saldo
    rw [hsaldos]
    exact (Nat.add_le_add_left hle _).trans hsobra
  refine Runs.lift_bind_ok (exigir_eq_ok.mpr htk') ?_
  refine Runs.lift_bind_ok (soma_eq_ok.mpr ⟨rfl, hlimite⟩) (Runs.modify_intro ?_)
  change MudaLivro s a _
  have hnovo : Token.ficha { tk' with balances := tk'.balances.insert para (tk'.saldo para + x) } =
      { tk.ficha with saldos := ((s.livro.razao id tk.ficha).aplica (.libera para x)).saldos } := by
    rw [← hficha]
    rfl
  rw [livro_insert, livro_lockedTokens, hu, hnovo]
  exact .posta htk hautoriza hle (hs.limite (fichas_of_get? htk))

section

variable {tx : Tx} {ctx : Ctx} (cr : Cripto)

theorem travarNativo_livro {P : Livro → Prop} (x : Amount) :
    Mantem (Le State.livro P) (travarNativo x) :=
  .get_bind fun _ _ => .lift_bind fun _ => .modify_intro fun _ hs => hs

theorem liberarNativo_livro {P : Livro → Prop} (para : String) (x : Amount) :
    Mantem (Le State.livro P) (liberarNativo para x) :=
  .get_bind fun _ _ => .lift_bind fun _ => .modify_bind (fun _ hs => hs) (creditar_mantem _ _)

theorem bridgeOut_runs (hs : s.livro.EmDia) (htx : a.tx? = some tx)
    (htipo : a.tipo? = some .bridgeOut) : RunsLivro s a (bridgeOut cr tx ctx) s := by
  refine Runs.get_bind (RunsLivro.confere rfl fun d hd => .confere rfl fun id _ => ?_)
  refine RunsLivro.confere rfl fun cadeia _ => .confere rfl fun endereco _ => ?_
  refine RunsLivro.confere rfl fun x hx => .confere rfl fun ativo hativo => ?_
  refine RunsLivro.confere rfl fun _ hconf => ?_
  have hler : lerSaida tx = .ok (ativo, x) :=
    except_bind_eq_ok.mpr ⟨d, hd, except_bind_eq_ok.mpr
      ⟨x, hx, except_bind_eq_ok.mpr ⟨ativo, hativo, rfl⟩⟩⟩
  cases ativo with
  | some token =>
    obtain ⟨tk, htk, -⟩ := except_bind_eq_ok.mp hconf
    refine RunsLivro.antes (debitar_mantem _ _) rfl fun _ v hv => ?_
    refine RunsLivro.segue (travarToken_runs hs (exigir_eq_ok.mp htk) hv (.trava htx ?_)) fun _ => ?_
    · simp [Acao.saida?, htipo, htx, hler, Except.toOption]
    · exact .modify_intro fun _ hs => hs
  | none =>
    refine RunsLivro.antes (debitar_mantem _ _) rfl fun _ v hv => ?_
    refine RunsLivro.antes (travarNativo_livro _) hv fun _ w hw => ?_
    exact Runs.modify_intro (livro_nada hw)

/-- A deposit of a token is of one that exists. -/
theorem token_of_conferir {dep : Deposito} {id : String}
    (h : conferirDeposito cr s tx ctx = .ok dep) (htoken : dep.token = some id) :
    ∃ tk, s.tokens.get? id = some tk := by
  obtain ⟨dep', -, h⟩ := except_bind_eq_ok.mp h
  obtain ⟨_, -, h⟩ := except_bind_eq_ok.mp h
  obtain ⟨_, -, h⟩ := except_bind_eq_ok.mp h
  obtain ⟨_, -, h⟩ := except_bind_eq_ok.mp h
  obtain ⟨_, hlibera, h⟩ := except_bind_eq_ok.mp h
  cases h
  obtain ⟨travado, htravado, -⟩ := except_bind_eq_ok.mp hlibera
  unfold travadoDe at htravado
  rw [htoken] at htravado
  dsimp only at htravado
  split_ifs at htravado with hexiste
  · exact OrdMap.contains_iff.mp hexiste
  · cases htravado

theorem bridgeIn_runs (hs : s.livro.EmDia) (htx : a.tx? = some tx)
    (htipo : a.tipo? = some .bridgeIn) : RunsLivro s a (bridgeIn cr tx ctx) s := by
  refine Runs.get_bind (RunsLivro.confere rfl fun dep hdep => Runs.modify_bind ?_)
  have hdeposito : a.deposito? s = some dep := by
    simp [Acao.deposito?, htipo, htx, lerDeposito_of_conferir hdep, Except.toOption]
  refine RunsLivro.segue ?_ fun _ => .modify_intro fun _ hs => hs
  unfold liberar
  split
  case h_1 id htoken =>
    obtain ⟨tk, htk⟩ := token_of_conferir cr hdep htoken
    exact liberarToken_runs hs htk rfl (.libera hdeposito htoken)
  case h_2 => exact liberarNativo_livro _ _ _ (livro_nada rfl)

theorem bridgeSettle_livro {P : Livro → Prop} : Mantem (Le State.livro P) (bridgeSettle tx ctx) := by
  refine .get_bind fun s hs => ?_
  repeat with_reducible refine Mantem.lift_bind fun _ => ?_
  exact .modify_intro fun _ hs => hs

end

end BridgeTx

/-! ## The actions do no more -/

section

variable {tx : Tx} {ctx : Ctx}

/-- The types whose handlers may move the books. -/
def Tipo.doLivro : List Tipo :=
  [tokenCreate, tokenTransfer, tokenTransferFrom, tokenMint, tokenBurn, metaTx, multisigPropose,
    multisigApprove, bridgeIn, bridgeOut]

theorem manipulador_fora_do_livro {P : Livro → Prop} {tipo : Tipo} (h : tipo ∉ Tipo.doLivro) :
    Mantem (Le State.livro P) (manipulador amb tx ctx tipo) := by
  by_cases hadmin : tipo ∈ [Tipo.tokenApprove, .tokenPause, .tokenUnpause, .tokenBlacklist,
    .tokenFreeze, .tokenUnfreeze]
  · exact TokenTx.administra_livro tx ctx hadmin
  by_cases hsettle : tipo = .bridgeSettle
  · subst hsettle
    exact @BridgeTx.bridgeSettle_livro tx ctx P
  have hfora : ∀ c ∈ tipo.pegada, c.doLivro = false := by
    cases tipo <;> first | decide | simp_all [Tipo.doLivro]
  refine manipulador_pegada tx ctx fun c hc => ?_
  have : Alheio c.doLivro := ⟨hfora c hc⟩
  infer_instance

theorem manipulador_runs {tipo : Tipo} (hs : s.livro.EmDia) (htx : a.tx? = some tx)
    (htipo : a.tipo? = some tipo) (hheight : a.height = ctx.height) :
    RunsLivro s a (manipulador amb tx ctx tipo) s := by
  by_cases hlivro : tipo ∈ Tipo.doLivro
  · simp only [Tipo.doLivro, List.mem_cons, List.not_mem_nil, or_false] at hlivro
    rcases hlivro with rfl | rfl | rfl | rfl | rfl | rfl | rfl | rfl | rfl | rfl
    · exact TokenTx.criar_runs _ tx ctx htx htipo
    · exact TokenTx.transferir_runs _ tx ctx hs hheight
    · exact TokenTx.transferirDe_runs _ tx ctx hs hheight
    · exact TokenTx.emitir_runs _ tx ctx hs htx htipo
    · exact TokenTx.queimar_runs tx ctx hs htx htipo
    · exact GovTx.metaTx_runs hs hheight
    · exact GovTx.multisigPropose_runs _ hs hheight
    · exact GovTx.multisigApprove_runs _ hs hheight
    · exact BridgeTx.bridgeIn_runs _ hs htx htipo
    · exact BridgeTx.bridgeOut_runs _ hs htx htipo
  · exact manipulador_fora_do_livro hlivro s (livro_nada rfl)

theorem applyTransaction_runs {height blockTs : ℕ} (hs : s.livro.EmDia) :
    RunsLivro s (.transacao tx height blockTs) (applyTransaction amb tx height blockTs) s := by
  refine applyTransaction_guia (livro_nada rfl) fun tipo gb fee hvm htipo _ _ => ?_
  exact manipulador_runs hs rfl (by simp [Acao.tipo?, Acao.tx?, hvm, htipo]) rfl

/-- Whatever an action does to the books is one of the moves. -/
theorem opera_livro (hs : s.livro.EmDia) (a : Acao) : MudaLivro s a (a.opera amb s).livro := by
  have hnada : Le State.livro (MudaLivro s a) s := .nada
  cases a with
  | transacao tx height blockTs => exact (applyTransaction_runs hs).fim
  | tick height => exact (blockTick_mantem height s hnada).fim
  | abre block => exact (abreBloco_mantem block s hnada).fim
  | emite block => exact (emiteRecompensa_mantem block s hnada).fim

theorem Acao.Aceita.opera {t : State} (ha : a.Aceita amb s t) : a.opera amb s = t := by
  cases ha with
  | transacao hv h => exact fim_eq h
  | tick h => exact fim_eq h
  | abre h => exact fim_eq h
  | emite h => exact fim_eq h

theorem Acao.Aceita.mudaLivro {t : State} (ha : a.Aceita amb s t) (hs : s.livro.EmDia) :
    MudaLivro s a t.livro := by
  rw [← ha.opera]
  exact opera_livro hs a

end

end Eav7
